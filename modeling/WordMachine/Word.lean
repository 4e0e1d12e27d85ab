/-!
Machine words. A cell of memory, a register and an entry of the stack hold any
sixteen bits; what the machine computes has fifteen. `Word.reduce` takes a
number to the fifteen-bit word congruent to it, and every result of arithmetic
goes through it (`BinaryOperation.eval`, `Word.complement`).
-/
namespace WordMachine

/-- Sixteen bits, as memory, registers and the stack hold them. -/
abbrev Word := UInt16

namespace Word

/-- Computed words are below this number. -/
def modulus : Nat := 32768

/-- The greatest computed word, which has fifteen ones. -/
def mask : Word := 32767

/-- The fifteen-bit word congruent to a number. -/
def reduce (n : Nat) : Word := UInt16.ofNat (n % modulus)

def flag (b : Bool) : Word := if b then 1 else 0

/-- The fifteen low bits, each inverted. -/
def complement (a : Word) : Word := reduce (~~~a).toNat

theorem le_mask_iff {word : Word} : word ≤ mask ↔ word.toNat < 32768 := by
  rw [UInt16.le_iff_toNat_le, show mask.toNat = 32767 from rfl]
  omega

theorem toNat_reduce (n : Nat) : (reduce n).toNat = n % modulus := by
  have below : n % modulus < modulus := Nat.mod_lt _ (by decide)
  simp only [modulus] at below
  simp only [reduce, UInt16.toNat_ofNat', modulus]
  omega

end Word

/-- The operations that compute a word from two words. -/
inductive BinaryOperation
  | eq | gt | add | mult | mod | and | or
deriving DecidableEq

/-- The result of an operation; `none` is a division by zero. The comparisons
    look at all sixteen bits, and the other results are reduced. -/
def BinaryOperation.eval : BinaryOperation → Word → Word → Option Word
  | .eq, a, b => some (Word.flag (a == b))
  | .gt, a, b => some (Word.flag (decide (b < a)))
  | .add, a, b => some (Word.reduce (a.toNat + b.toNat))
  | .mult, a, b => some (Word.reduce (a.toNat * b.toNat))
  | .mod, a, b => if b = 0 then none else some (Word.reduce (a.toNat % b.toNat))
  | .and, a, b => some (Word.reduce (a &&& b).toNat)
  | .or, a, b => some (Word.reduce (a ||| b).toNat)

theorem BinaryOperation.eval_eq_none_iff {op : BinaryOperation} {a b : Word} :
    op.eval a b = none ↔ op = .mod ∧ b = 0 := by
  cases op <;> simp [eval]

end WordMachine
