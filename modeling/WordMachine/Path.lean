/-!
Paths and locations. A path is a text of steps between slashes; it starts at the
working directory, or at the top if it begins with a slash. A location is where
steps lead. What lies outside the working directory has no known name, so a
location is told by names from one of the directories that are always there.
-/
namespace WordMachine

/-- A directory that is always there. -/
inductive Anchor
  /-- The directory so many levels above the working directory. -/
  | above (levels : Nat)
  | top
deriving DecidableEq

/-- A place for a file or directory: the names that lead down from an anchor. -/
structure Location where
  anchor : Anchor
  names : List String
deriving DecidableEq

namespace Location

def working : Location := ⟨.above 0, []⟩

def child (location : Location) (name : String) : Location :=
  { location with names := location.names ++ [name] }

/-- The directory around a location. The top is around itself. -/
def parent : Location → Location
  | ⟨.above levels, []⟩ => ⟨.above (levels + 1), []⟩
  | ⟨.top, []⟩ => ⟨.top, []⟩
  | ⟨anchor, names⟩ => ⟨anchor, names.dropLast⟩

theorem parent_child (location : Location) (name : String) : (location.child name).parent = location := by
  obtain ⟨anchor, names⟩ := location
  have below : names ++ [name] ≠ [] := by simp
  rw [child, parent]
  · rw [List.dropLast_concat]
  · intro levels _ empty
    exact below empty
  · intro _ empty
    exact below empty

end Location

inductive Step
  | here
  | up
  | name (name : String)
deriving DecidableEq

namespace Path

/-- The pieces of a text between its slashes. -/
def pieces (text : List Char) : List (List Char) :=
  text.foldr (fun c pieces =>
    match c, pieces with
    | '/', pieces => [] :: pieces
    | c, piece :: pieces => (c :: piece) :: pieces
    | c, [] => [[c]]) [[]]

def steps (path : String) : List Step :=
  ((pieces path.toList).filter (· ≠ [])).map fun piece =>
    match piece with
    | ['.'] => .here
    | ['.', '.'] => .up
    | piece => .name (String.ofList piece)

/-- A path that begins with a slash starts at the top. -/
def isAbsolute (path : String) : Bool := path.toList.head? == some '/'

def start (path : String) : Location := if isAbsolute path then ⟨.top, []⟩ else .working

/-- A path that ends in a slash can only name a directory. -/
def namesDirectory (path : String) : Bool := path.toList.getLast? == some '/'

/-- The path of the directory in which the last step of a path is taken. -/
def directory (path : String) : String :=
  let idle (piece : List Char) : Bool := piece = [] || piece = ['.']
  let before := ((((pieces path.toList).reverse.dropWhile idle).drop 1).dropWhile idle).reverse
  if before = [] then (if isAbsolute path then "/" else ".")
  else "/".intercalate (before.map String.ofList)

/-- A path or a name with a null character in it cannot be handed on. -/
def hasNull (path : String) : Bool := path.toList.contains '\x00'

/-- The most bytes that a path may have. -/
def longest : Nat := 4095

/-- The most bytes that a name may have. -/
def longestName : Nat := 255

/-- The bytes that the full path of the working directory is taken to have. -/
def workingBytes : Nat := 15

/-- The bytes of the name of a file that is being prepared. -/
def preparedBytes : Nat := 10

/-- The bytes of the full path of a file that is being prepared in a directory:
    the working directory comes before a relative path. -/
def stagedBytes (directory : String) : Nat :=
  (if isAbsolute directory then 0 else workingBytes + 1) + directory.utf8ByteSize + 1 + preparedBytes

end Path

end WordMachine
