import WordMachine.Word

/-!
The memory of the machine: 32768 cells, addressed from zero. An image is a
list of bytes that holds the first cells, low byte before high byte
(`Memory.ofBytes`); a dump holds every cell (`Memory.ofWords?`).
-/
namespace WordMachine

def Memory.size : Nat := 32768

/-- A word in each of the cells. -/
structure Memory where
  cells : Vector Word Memory.size
deriving DecidableEq

/-- An image holds more words than there are cells. -/
structure ImageTooLarge where
  words : Nat
deriving DecidableEq

def ImageTooLarge.message (error : ImageTooLarge) : String :=
  s!"program image holds {error.words} words, memory has room for {Memory.size}"

/-- The words of a list of bytes, two bytes a word with the low one first. A
    last odd byte is the low byte of a word. -/
def wordsOfBytes : List UInt8 → List Word
  | low :: high :: rest => UInt16.ofNat (low.toNat + 256 * high.toNat) :: wordsOfBytes rest
  | [low] => [UInt16.ofNat low.toNat]
  | [] => []

namespace Memory

def empty : Memory := ⟨Vector.replicate size 0⟩

/-- The word at an address; `none` past the last cell. -/
def read? (memory : Memory) (address : Nat) : Option Word := memory.cells[address]?

/-- The memory with a word put at an address; `none` past the last cell. -/
@[inline] def write? (memory : Memory) (address : Nat) (word : Word) : Option Memory :=
  if inside : address < size then some ⟨memory.cells.set address word inside⟩ else none

/-- The cells from an address on; `none` if they run past the last cell. -/
def slice? (memory : Memory) (start length : Nat) : Option (Vector Word length) :=
  if inside : start + length ≤ size then
    some (Vector.ofFn fun i => memory.cells.get ⟨start + i.val, by omega⟩)
  else none

def words (memory : Memory) : List Word := memory.cells.toList

/-- The given words in the first cells, and zeros after them. -/
def padded (words : List Word) : Memory :=
  let given := words.toArray
  ⟨Vector.ofFn fun i => given[i.val]?.getD 0⟩

/-- The memory that an image fills from address zero. -/
def ofBytes (bytes : List UInt8) : Except ImageTooLarge Memory :=
  let count := (bytes.length + 1) / 2
  if count ≤ size then .ok (padded (wordsOfBytes bytes)) else .error ⟨count⟩

/-- The memory of a full dump, which has a word for every cell. -/
def ofWords? (words : List Word) : Option Memory :=
  if full : words.toArray.size = size then some ⟨⟨words.toArray, full⟩⟩ else none

/-- The address after the last cell that is not zero. -/
def used (memory : Memory) : Nat :=
  (memory.words.reverse.dropWhile (· == 0)).length

theorem read?_eq_none_iff {memory : Memory} {address : Nat} :
    memory.read? address = none ↔ size ≤ address := by
  simp [read?]

theorem write?_eq_none_iff {memory : Memory} {address : Nat} {word : Word} :
    memory.write? address word = none ↔ size ≤ address := by
  simp [write?]

theorem slice?_eq_none_iff {memory : Memory} {start length : Nat} :
    memory.slice? start length = none ↔ size < start + length := by
  simp [slice?]

theorem read?_of_slice? {memory : Memory} {start length : Nat} {cut : Vector Word length}
    (sliced : memory.slice? start length = some cut) {k : Nat} (inside : k < length) :
    memory.read? (start + k) = some cut[k] := by
  unfold slice? at sliced
  split at sliced
  · next room =>
    cases sliced
    have below : start + k < size := by omega
    simp [read?, below, Vector.get]
  · cases sliced

theorem read?_empty {address : Nat} (inside : address < size) : empty.read? address = some 0 := by
  simp [read?, empty, inside]

/-- A write changes the one cell that it names. -/
theorem read?_of_write? {memory written : Memory} {address : Nat} {word : Word}
    (done : memory.write? address word = some written) (other : Nat) :
    written.read? other = if other = address then some word else memory.read? other := by
  unfold write? at done
  split at done
  · next inside =>
    cases done
    by_cases same : other = address
    · subst same
      simp [read?, inside]
    · simp [read?, same, Ne.symm same]
  · simp at done

theorem read?_padded (words : List Word) {address : Nat} (inside : address < size) :
    (padded words).read? address = some (words[address]?.getD 0) := by
  simp [read?, padded, inside]

theorem read?_padded_getElem {words : List Word} (room : words.length ≤ size) {k : Nat} (below : k < words.length) :
    (padded words).read? k = some words[k] := by
  rw [read?_padded _ (Nat.lt_of_lt_of_le below room), List.getElem?_eq_getElem below, Option.getD_some]

@[simp] theorem length_words (memory : Memory) : memory.words.length = size := by
  simp [words]

@[simp] theorem ofWords?_words (memory : Memory) : ofWords? memory.words = some memory := by
  obtain ⟨⟨cells, full⟩⟩ := memory
  simp [ofWords?, words, full]

end Memory

end WordMachine
