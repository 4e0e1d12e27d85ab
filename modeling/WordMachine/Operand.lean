import WordMachine.Word

/-!
Operand words. A word below 32768 stands for itself, the eight words from
there on name the registers, and the words above have no meaning.
-/
namespace WordMachine

abbrev Registers := Vector Word 8

namespace Registers

/-- The word that names the first register. -/
def base : Word := 32768

/-- How many registers there are. -/
def count : Nat := 8

def zero : Registers := Vector.replicate 8 0

end Registers

/-- What an operand word stands for. -/
inductive Operand
  | literal (value : Word)
  | register (index : Fin 8)
  | invalid (word : Word)
deriving DecidableEq

namespace Operand

def classify (word : Word) : Operand :=
  if word ≤ Word.mask then .literal word
  else if inside : word.toNat - Registers.base.toNat < 8 then .register ⟨_, inside⟩
  else .invalid word

def register? : Operand → Option (Fin 8)
  | .register index => some index
  | _ => none

def value? (registers : Registers) : Operand → Option Word
  | .literal value => some value
  | .register index => some registers[index]
  | .invalid _ => none

theorem classify_of_lt {word : Word} (below : word.toNat < 32768) : classify word = .literal word := by
  rw [classify, if_pos (Word.le_mask_iff.mpr below)]

theorem classify_of_register {word : Word} {index : Fin 8} (named : word.toNat = 32768 + index.val) :
    classify word = .register index := by
  have above : ¬ word ≤ Word.mask := by
    rw [Word.le_mask_iff]
    omega
  have base : Registers.base.toNat = 32768 := rfl
  have place : word.toNat - Registers.base.toNat = index.val := by omega
  simp only [classify, above, if_false, place, index.isLt, dif_pos, Fin.eta]

theorem classify_of_le {word : Word} (beyond : 32776 ≤ word.toNat) : classify word = .invalid word := by
  have above : ¬ word ≤ Word.mask := by
    rw [Word.le_mask_iff]
    omega
  have base : Registers.base.toNat = 32768 := rfl
  have outside : ¬ word.toNat - Registers.base.toNat < 8 := by omega
  rw [classify, if_neg above, dif_neg outside]

theorem classify_cases (word : Word) :
    word.toNat < 32768 ∧ classify word = .literal word ∨
      (∃ index : Fin 8, word.toNat = 32768 + index.val ∧ classify word = .register index) ∨
      32776 ≤ word.toNat ∧ classify word = .invalid word := by
  by_cases below : word.toNat < 32768
  · exact .inl ⟨below, classify_of_lt below⟩
  · by_cases named : word.toNat < 32776
    · have place : word.toNat = 32768 + (word.toNat - 32768) := by omega
      exact .inr (.inl ⟨⟨word.toNat - 32768, by omega⟩, place, classify_of_register place⟩)
    · exact .inr (.inr ⟨Nat.le_of_not_lt named, classify_of_le (Nat.le_of_not_lt named)⟩)

end Operand

namespace Registers

/-- The value that an operand word stands for. -/
def resolve? (registers : Registers) (word : Word) : Option Word :=
  (Operand.classify word).value? registers

theorem resolve?_of_lt (registers : Registers) {word : Word} (below : word.toNat < 32768) :
    registers.resolve? word = some word := by
  rw [resolve?, Operand.classify_of_lt below]
  rfl

theorem resolve?_of_register (registers : Registers) {word : Word} {index : Fin 8}
    (named : word.toNat = 32768 + index.val) : registers.resolve? word = some registers[index] := by
  rw [resolve?, Operand.classify_of_register named]
  rfl

theorem resolve?_eq_none_iff {registers : Registers} {word : Word} :
    registers.resolve? word = none ↔ 32776 ≤ word.toNat := by
  rcases Operand.classify_cases word with ⟨below, literal⟩ | ⟨index, named, register⟩ | ⟨beyond, invalid⟩
  · simp [resolve?, literal, Operand.value?]
    omega
  · simp [resolve?, register, Operand.value?]
    omega
  · simp [resolve?, invalid, Operand.value?, beyond]

/-- Only the register changes that is set. -/
theorem eq_of_getElem_set_ne {registers : Registers} {index k : Nat} {value : Word} (named : index < 8) {inside : k < 8}
    (changed : (registers.set index value named)[k] ≠ registers[k]) : k = index := by
  by_cases same : k = index
  · exact same
  · exact absurd (Vector.getElem_set_ne named inside (Ne.symm same)) changed

/-- A value is the word itself or in a register. -/
theorem eq_or_mem_of_resolve? {registers : Registers} {word value : Word}
    (resolved : registers.resolve? word = some value) :
    value.toNat < 32768 ∨ value ∈ registers.toList := by
  rcases Operand.classify_cases word with ⟨below, -⟩ | ⟨index, named, -⟩ | ⟨beyond, -⟩
  · rw [registers.resolve?_of_lt below] at resolved
    cases resolved
    exact .inl below
  · rw [registers.resolve?_of_register named] at resolved
    cases resolved
    exact .inr (by simp)
  · rw [resolve?_eq_none_iff.mpr beyond] at resolved
    cases resolved

end Registers

end WordMachine
