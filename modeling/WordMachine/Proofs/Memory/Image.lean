import Mathlib.Algebra.Order.Floor.Div
import Mathlib.Algebra.Order.Ring.Nat
import Mathlib.GroupTheory.GroupAction.Ring
import WordMachine.Memory

/-!
Images and the memories that they fill. `byteAt` reads an image as if it went on with zeros
for ever, so the cell at `i` has the bytes at `2 * i` and `2 * i + 1` (`Memory.Filled`),
wherever the image ends. An image is refused only for its length, and otherwise fills one
memory (`Memory.inverts_encoding`); the bytes of words fill it with these words.
-/
namespace WordMachine

/-- The number of a byte of an image. A byte past the end counts as zero. -/
def byteAt (bytes : List UInt8) (k : Nat) : Nat := (bytes[k]?.getD 0).toNat

/-- The bytes of words, the low byte of each first. -/
def bytesOfWords (words : List Word) : List UInt8 :=
  words.flatMap fun word => [UInt8.ofNat (word.toNat % 256), UInt8.ofNat (word.toNat / 256)]

theorem byteAt_lt (bytes : List UInt8) (k : Nat) : byteAt bytes k < 256 := UInt8.toNat_lt _

theorem byteAt_of_le {bytes : List UInt8} {k : Nat} (beyond : bytes.length ≤ k) : byteAt bytes k = 0 := by
  rw [byteAt, List.getElem?_eq_none beyond]
  rfl

/-! ### Bytes as words -/

/-- A word of an image has two of its bytes, the low one first, also where the image ends
    within it or before it. -/
theorem toNat_getD_wordsOfBytes (bytes : List UInt8) (i : Nat) :
    ((wordsOfBytes bytes)[i]?.getD 0).toNat = byteAt bytes (2 * i) + 256 * byteAt bytes (2 * i + 1) := by
  induction bytes using wordsOfBytes.induct generalizing i with
  | case1 low high rest ih =>
    cases i with
    | zero =>
      have small : low.toNat < 256 := low.toNat_lt
      have also_small : high.toNat < 256 := high.toNat_lt
      have fits : low.toNat + 256 * high.toNat < 65536 := by omega
      exact UInt16.toNat_ofNat_of_lt' fits
    | succ i =>
      rw [wordsOfBytes, List.getElem?_cons_succ, ih, Nat.mul_succ]
      rfl
  | case2 low =>
    cases i with
    | zero =>
      have small : low.toNat < 256 := low.toNat_lt
      have fits : low.toNat < 65536 := by omega
      exact UInt16.toNat_ofNat_of_lt' fits
    | succ i =>
      rw [byteAt_of_le (by simp; omega), byteAt_of_le (by simp)]
      rfl
  | case3 =>
    rw [byteAt_of_le (Nat.zero_le _), byteAt_of_le (Nat.zero_le _)]
    rfl

theorem length_bytesOfWords (words : List Word) : (bytesOfWords words).length = 2 * words.length := by
  induction words with
  | nil => rfl
  | cons word words ih =>
    rw [bytesOfWords, List.flatMap_cons, List.length_append, ← bytesOfWords, ih, List.length_cons]
    simp only [List.length_cons, List.length_nil]
    omega

/-- Words are read back from their bytes. -/
theorem wordsOfBytes_bytesOfWords (words : List Word) : wordsOfBytes (bytesOfWords words) = words := by
  induction words with
  | nil => rfl
  | cons word words ih =>
    have sixteen : word.toNat < 65536 := word.toNat_lt
    have low : (UInt8.ofNat (word.toNat % 256)).toNat = word.toNat % 256 :=
      UInt8.toNat_ofNat_of_lt' (Nat.mod_lt _ (by decide))
    have high : (UInt8.ofNat (word.toNat / 256)).toNat = word.toNat / 256 :=
      UInt8.toNat_ofNat_of_lt' (by change _ < 256; omega)
    change UInt16.ofNat _ :: wordsOfBytes (bytesOfWords words) = word :: words
    rw [ih, low, high, Nat.mod_add_div, UInt16.ofNat_toNat]

/-! ### Padding -/

theorem getElem?_rightpad {α : Type} (items : List α) (filler : α) {n k : Nat} (below : k < n) :
    (items.rightpad n filler)[k]? = some (items[k]?.getD filler) := by
  rw [List.rightpad]
  by_cases inside : k < items.length
  · rw [List.getElem?_append_left inside, List.getElem?_eq_getElem inside]
    rfl
  · have beyond : items.length ≤ k := Nat.le_of_not_lt inside
    rw [List.getElem?_append_right beyond, List.getElem?_replicate, if_pos (by omega),
      List.getElem?_eq_none beyond]
    rfl

theorem length_rightpad_of_le {α : Type} {items : List α} (filler : α) {n : Nat} (short : items.length ≤ n) :
    (items.rightpad n filler).length = n := by
  rw [List.rightpad, List.length_append, List.length_replicate]
  omega

/-- What is padded in any case may stand there before. -/
theorem rightpad_concat {α : Type} {items : List α} (filler : α) {n : Nat} (short : items.length < n) :
    (items ++ [filler]).rightpad n filler = items.rightpad n filler := by
  have lacking : n - items.length = (n - (items ++ [filler]).length) + 1 := by
    rw [List.length_append, List.length_singleton]
    omega
  rw [List.rightpad, List.rightpad, lacking, List.replicate_succ, List.append_assoc, List.singleton_append]

/-- Padded images are equal if they have the same bytes up to there. -/
theorem rightpad_eq_iff {n : Nat} {a b : List UInt8} (short : a.length ≤ n) (also_short : b.length ≤ n) :
    a.rightpad n 0 = b.rightpad n 0 ↔ ∀ k < n, byteAt a k = byteAt b k := by
  constructor
  · intro same k below
    have at_k := getElem?_rightpad a 0 below
    rw [same, getElem?_rightpad b 0 below] at at_k
    rw [byteAt, byteAt, Option.some.inj at_k]
  · intro same
    refine List.ext_getElem? fun k => ?_
    by_cases below : k < n
    · rw [getElem?_rightpad a 0 below, getElem?_rightpad b 0 below, UInt8.toNat_inj.mp (same k below)]
    · have beyond : n ≤ k := Nat.le_of_not_lt below
      rw [List.getElem?_eq_none (by rwa [length_rightpad_of_le 0 short]),
        List.getElem?_eq_none (by rwa [length_rightpad_of_le 0 also_short])]

/-! ### Images -/

namespace Memory

theorem read?_eq_getElem? (memory : Memory) (address : Nat) : memory.read? address = memory.words[address]? := by
  simp [read?, words]

/-- Words fill the first cells, and the other cells are zero. -/
theorem words_padded {words : List Word} (room : words.length ≤ size) :
    (padded words).words = words ++ List.replicate (size - words.length) 0 := by
  change (padded words).words = words.rightpad size 0
  refine List.ext_getElem? fun k => ?_
  rw [← read?_eq_getElem?]
  by_cases inside : k < size
  · rw [read?_padded words inside, getElem?_rightpad words 0 inside]
  · have beyond : size ≤ k := Nat.le_of_not_lt inside
    rw [read?_eq_none_iff.mpr beyond, List.getElem?_eq_none (by rwa [length_rightpad_of_le 0 room])]

/-- The memory that an image fills, cell by cell. -/
structure Filled (memory : Memory) (bytes : List UInt8) : Prop where
  cell : ∀ i (inside : i < size),
    (memory.cells[i]).toNat = byteAt bytes (2 * i) + 256 * byteAt bytes (2 * i + 1)
  /-- Every cell past the end of the image is zero. -/
  rest : ∀ i (inside : i < size), bytes.length ≤ 2 * i → memory.cells[i] = 0

namespace Filled

variable {memory other : Memory} {bytes a b : List UInt8}

theorem of_padded (bytes : List UInt8) : (padded (wordsOfBytes bytes)).Filled bytes := by
  have cell (i : Nat) (inside : i < size) : ((padded (wordsOfBytes bytes)).cells[i]).toNat
      = byteAt bytes (2 * i) + 256 * byteAt bytes (2 * i + 1) := by
    rw [← toNat_getD_wordsOfBytes]
    simp [padded]
  refine ⟨cell, ?_⟩
  intro i inside beyond
  refine UInt16.toNat_inj.mp ?_
  rw [cell i inside, byteAt_of_le beyond, byteAt_of_le (Nat.le_succ_of_le beyond)]
  rfl

/-- Two memories are equal if the images that fill them have the same bytes, as far as there are
    cells. -/
theorem eq_iff (first : memory.Filled a) (second : other.Filled b) :
    memory = other ↔ ∀ k < 2 * size, byteAt a k = byteAt b k := by
  constructor
  · rintro rfl k below
    have inside : k / 2 < size := by omega
    have same := (first.cell (k / 2) inside).symm.trans (second.cell (k / 2) inside)
    have low := byteAt_lt a (2 * (k / 2))
    have also_low := byteAt_lt b (2 * (k / 2))
    rcases Nat.mod_two_eq_zero_or_one k with even | odd
    · rw [show k = 2 * (k / 2) by omega]
      omega
    · rw [show k = 2 * (k / 2) + 1 by omega]
      omega
  · intro same
    obtain ⟨cells⟩ := memory
    obtain ⟨others⟩ := other
    refine congrArg Memory.mk (Vector.ext fun i inside => UInt16.toNat_inj.mp ?_)
    rw [first.cell i inside, second.cell i inside, same _ (by omega), same _ (by omega)]

theorem unique (first : memory.Filled bytes) (second : other.Filled bytes) : memory = other :=
  (first.eq_iff second).mpr fun _ _ => rfl

end Filled

theorem count_le_iff (bytes : List UInt8) : (bytes.length + 1) / 2 ≤ size ↔ bytes.length ≤ 65536 := by
  rw [show size = 32768 from rfl]
  omega

theorem ofBytes_eq_error_iff {bytes : List UInt8} {error : ImageTooLarge} :
    ofBytes bytes = .error error ↔ 65536 < bytes.length ∧ error.words = bytes.length ⌈/⌉ 2 := by
  rw [Nat.ceilDiv_eq_add_pred_div, ofBytes]
  by_cases fits : (bytes.length + 1) / 2 ≤ size
  · have short := (count_le_iff bytes).mp fits
    simp [fits, Nat.not_lt.mpr short]
  · have long := Nat.lt_of_not_le fun short => fits ((count_le_iff bytes).mpr short)
    obtain ⟨count⟩ := error
    simp [fits, long, eq_comm]

theorem ofBytes_eq_ok_iff {bytes : List UInt8} {memory : Memory} :
    ofBytes bytes = .ok memory ↔ bytes.length ≤ 65536 ∧ memory.Filled bytes := by
  rw [ofBytes, ← count_le_iff]
  by_cases fits : (bytes.length + 1) / 2 ≤ size
  · simp only [fits, if_true, true_and, Except.ok.injEq]
    constructor
    · rintro rfl
      exact .of_padded bytes
    · exact (Filled.of_padded bytes).unique
  · simp [fits]

/-- An image is refused if it has more bytes than the cells hold, and then the words that it
    would have are counted. Any other image fills one memory, with the low byte of a word before
    the high one and zeros behind it. So words are read back from their bytes, and two images
    that are accepted fill the same memory if and only if zeros behind them make them the same. -/
theorem inverts_encoding :
    (∀ bytes error, ofBytes bytes = .error error ↔ 65536 < bytes.length ∧ error.words = bytes.length ⌈/⌉ 2) ∧
    (∀ bytes memory, ofBytes bytes = .ok memory ↔ bytes.length ≤ 65536 ∧ memory.Filled bytes) ∧
    (∀ words : List Word, words.length ≤ 32768 → ∃ memory, ofBytes (bytesOfWords words) = .ok memory ∧
      memory.words = words ++ List.replicate (32768 - words.length) 0) ∧
    ∀ a b memory other, ofBytes a = .ok memory → ofBytes b = .ok other →
      (memory = other ↔ a.rightpad 65536 0 = b.rightpad 65536 0) := by
  refine ⟨fun bytes error => ofBytes_eq_error_iff, fun bytes memory => ofBytes_eq_ok_iff, ?_, ?_⟩
  · intro words room
    refine ⟨padded words, ?_, words_padded room⟩
    have filled := Filled.of_padded (bytesOfWords words)
    rw [wordsOfBytes_bytesOfWords] at filled
    exact ofBytes_eq_ok_iff.mpr ⟨by rw [length_bytesOfWords]; omega, filled⟩
  · intro a b memory other first second
    obtain ⟨short, filled⟩ := ofBytes_eq_ok_iff.mp first
    obtain ⟨also_short, also_filled⟩ := ofBytes_eq_ok_iff.mp second
    rw [filled.eq_iff also_filled, rightpad_eq_iff short also_short]
    rfl

/-- An image that ends within a word, and the same image with a zero behind it. -/
theorem inverts_encoding_odd :
    ([513, 127] : List Word).length ≤ 32768 ∧ bytesOfWords [513, 127] = [1, 2, 127, 0] ∧
      ∃ memory, ofBytes [1, 2, 127, 0] = .ok memory ∧ ofBytes [1, 2, 127] = .ok memory ∧
        memory.words = [513, 127] ++ List.replicate 32766 0 := by
  obtain ⟨-, fills, decodes, pads⟩ := inverts_encoding
  obtain ⟨memory, accepted, words⟩ := decodes [513, 127] (by decide)
  refine ⟨by decide, rfl, memory, accepted, ?_, words⟩
  have filled := Filled.of_padded [1, 2, 127]
  have odd := (fills [1, 2, 127] _).mpr ⟨by decide, filled⟩
  rwa [(pads [1, 2, 127] [1, 2, 127, 0] _ _ odd accepted).mpr (rightpad_concat 0 (by decide)).symm] at odd

end Memory

end WordMachine
