import WordMachine.Path

/-!
A small file system. A disk holds files and directories at locations; a path is
followed step by step from where it starts, and every step must be taken from a
directory. `Disk.replace` puts a file in place in one go, so that a refusal leaves
the disk as it was.
-/
namespace WordMachine

inductive DiskError
  | missing
  | busy
  | notADirectory
  | isADirectory
  /-- A null character stands in the name of a file to be replaced. -/
  | invalid
  | nameTooLong
  /-- A null character stands in a path to be opened. -/
  | nullInName
deriving DecidableEq

/-- The text of a refusal, with its number. -/
def DiskError.message : DiskError → String
  | missing => "No such file or directory (os error 2)"
  | busy => "Device or resource busy (os error 16)"
  | notADirectory => "Not a directory (os error 20)"
  | isADirectory => "Is a directory (os error 21)"
  | invalid => "Invalid argument (os error 22)"
  | nameTooLong => "File name too long (os error 36)"
  | nullInName => "file name contained an unexpected NUL byte"

inductive Entry
  | file (bytes : List UInt8)
  | directory
deriving DecidableEq

/-- The files and directories besides the anchors. -/
structure Disk where
  entries : List (Location × Entry)
deriving DecidableEq

namespace Disk

def empty : Disk := ⟨[]⟩

/-- What stands at a location. Every anchor is a directory. -/
def get? (disk : Disk) (location : Location) : Option Entry :=
  if location.names = [] then some .directory else disk.entries.lookup location

def put (disk : Disk) (location : Location) (entry : Entry) : Disk :=
  ⟨(location, entry) :: disk.entries.filter (·.1 ≠ location)⟩

def erase (disk : Disk) (location : Location) : Disk := ⟨disk.entries.filter (·.1 ≠ location)⟩

/-- One step on from a location, which must be a directory. -/
def advance (disk : Disk) (location : Location) (step : Step) : Except DiskError Location :=
  match disk.get? location with
  | none => .error .missing
  | some (.file _) => .error .notADirectory
  | some .directory =>
    match step with
    | .here => .ok location
    | .up => .ok location.parent
    | .name name =>
      if Path.longestName < name.utf8ByteSize then .error .nameTooLong else .ok (location.child name)

/-- The location that steps lead to. Nothing needs to stand there. -/
def walk (disk : Disk) : Location → List Step → Except DiskError Location
  | location, [] => .ok location
  | location, step :: steps =>
    match disk.advance location step with
    | .error error => .error error
    | .ok next => disk.walk next steps

/-- Why a path is refused before it is followed. -/
def refusal? (path : String) : Option DiskError :=
  if path = "" then some .missing
  else if Path.longest < path.utf8ByteSize then some .nameTooLong
  else none

def locate (disk : Disk) (path : String) : Except DiskError Location :=
  if Path.hasNull path then .error .nullInName
  else
    match refusal? path with
    | some error => .error error
    | none => disk.walk (Path.start path) (Path.steps path)

def find (disk : Disk) (path : String) : Except DiskError Entry :=
  match disk.locate path with
  | .error error => .error error
  | .ok location =>
    match disk.get? location with
    | none => .error .missing
    | some (.file bytes) =>
      if Path.namesDirectory path then .error .notADirectory else .ok (.file bytes)
    | some .directory => .ok .directory

def read (disk : Disk) (path : String) : Except DiskError (List UInt8) :=
  match disk.find path with
  | .error error => .error error
  | .ok .directory => .error .isADirectory
  | .ok (.file bytes) => .ok bytes

/-- The directory in which the last step of a path is taken, if a new file can be
    prepared there. -/
def directoryFor (disk : Disk) (path : String) : Except DiskError Location :=
  let directory := Path.directory path
  if Path.hasNull directory then .error .nullInName
  else if Path.longest < Path.stagedBytes directory then .error .nameTooLong
  else
    match disk.walk (Path.start directory) (Path.steps directory) with
    | .error error => .error error
    | .ok location =>
      match disk.get? location with
      | none => .error .missing
      | some (.file _) => .error .notADirectory
      | some .directory => .ok location

/-- The location where a path puts a file that has been prepared. -/
def placeFor (disk : Disk) (path : String) : Except DiskError Location :=
  match refusal? path, (Path.steps path).getLast? with
  | some error, _ => .error error
  | none, none => .error .busy
  | none, some last =>
    match disk.walk (Path.start path) (Path.steps path).dropLast with
    | .error error => .error error
    | .ok parent =>
      match disk.advance parent last, last with
      | .error error, _ => .error error
      | .ok location, .name _ =>
        if Path.namesDirectory path then .error .notADirectory
        else if disk.get? location = some .directory then .error .isADirectory
        else .ok location
      | .ok _, _ => .error .busy

/-- Puts a file in place of what a path names. The file is prepared next to its
    place, so both must be there. -/
def replace (disk : Disk) (path : String) (bytes : List UInt8) : Except DiskError Disk :=
  match disk.directoryFor path with
  | .error error => .error error
  | .ok _ =>
    if Path.hasNull path then .error .invalid
    else
      match disk.placeFor path with
      | .error error => .error error
      | .ok location => .ok (disk.put location (.file bytes))

/-- The location that a path gives a file to be written from its start. -/
def create (disk : Disk) (path : String) : Except DiskError Location :=
  if Path.hasNull path then .error .nullInName
  else
    match refusal? path, (Path.steps path).getLast? with
    | some error, _ => .error error
    | none, none => .error .isADirectory
    | none, some last =>
      match disk.walk (Path.start path) (Path.steps path).dropLast with
      | .error error => .error error
      | .ok parent =>
        if Path.namesDirectory path ∧ disk.get? parent = some .directory then .error .isADirectory
        else
          match disk.advance parent last with
          | .error error => .error error
          | .ok location =>
            if disk.get? location = some .directory then .error .isADirectory else .ok location

/-- The names in a directory, in order; nothing if there is no such directory. -/
def names (disk : Disk) (path : String) : List String :=
  match disk.locate path with
  | .error _ => []
  | .ok location =>
    let inside := disk.entries.filterMap fun (place, _) =>
      if place.parent = location then place.names.getLast? else none
    inside.mergeSort (fun a b => decide (a ≤ b))

theorem get?_put (disk : Disk) {location : Location} (below : location.names ≠ []) (entry : Entry)
    (other : Location) :
    (disk.put location entry).get? other = if other = location then some entry else disk.get? other := by
  by_cases same : other = location
  · subst same
    simp [get?, put, below]
  · have kept : ∀ entries : List (Location × Entry),
        (entries.filter (·.1 ≠ location)).lookup other = entries.lookup other := by
      intro entries
      induction entries with
      | nil => rfl
      | cons head entries ih =>
        obtain ⟨place, content⟩ := head
        by_cases dropped : place = location
        · subst dropped
          simp only [ne_eq, not_true_eq_false, decide_false, Bool.false_eq_true, not_false_eq_true,
            List.filter_cons_of_neg, List.lookup_cons, beq_eq_false_iff_ne.mpr same]
          exact ih
        · simp only [ne_eq, dropped, not_false_eq_true, decide_true, List.filter_cons_of_pos,
            List.lookup_cons]
          split <;> simp_all
    have apart : (other == location) = false := beq_eq_false_iff_ne.mpr same
    simp only [get?, put, same, if_false, List.lookup_cons, apart]
    split
    · rfl
    · exact kept disk.entries

end Disk

end WordMachine
