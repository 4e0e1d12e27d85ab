import WordMachine.Word

/-!
The instruction set: twenty-two operations, each with its number, its mnemonic
and the number of operand words that follow it in memory. A word names the
operation of its number (`Operation.ofWord?_eq_some_iff`); words from
twenty-two on name none.
-/
namespace WordMachine

inductive Operation
  | halt | set | push | pop | eq | gt | jmp | jt | jf | add | mult
  | mod | and | or | not | rmem | wmem | call | ret | out | input | noop
deriving DecidableEq

namespace Operation

/-- All operations, each at the place of its number. -/
def table : Array Operation :=
  #[halt, set, push, pop, eq, gt, jmp, jt, jf, add, mult,
    mod, and, or, not, rmem, wmem, call, ret, out, input, noop]

def code : Operation → Word
  | halt => 0 | set => 1 | push => 2 | pop => 3 | eq => 4 | gt => 5 | jmp => 6 | jt => 7
  | jf => 8 | add => 9 | mult => 10 | mod => 11 | and => 12 | or => 13 | not => 14
  | rmem => 15 | wmem => 16 | call => 17 | ret => 18 | out => 19 | input => 20 | noop => 21

def arity : Operation → Nat
  | halt | ret | noop => 0
  | push | pop | jmp | call | out | input => 1
  | set | jt | jf | not | rmem | wmem => 2
  | eq | gt | add | mult | mod | and | or => 3

def mnemonic : Operation → String
  | halt => "halt" | set => "set" | push => "push" | pop => "pop" | eq => "eq" | gt => "gt"
  | jmp => "jmp" | jt => "jt" | jf => "jf" | add => "add" | mult => "mult" | mod => "mod"
  | and => "and" | or => "or" | not => "not" | rmem => "rmem" | wmem => "wmem"
  | call => "call" | ret => "ret" | out => "out" | input => "in" | noop => "noop"

/-- The operation that a word names. -/
def ofWord? (word : Word) : Option Operation := table[word.toNat]?

@[simp] theorem ofWord?_code (op : Operation) : ofWord? op.code = some op := by
  cases op <;> rfl

theorem ofWord?_eq_none_iff {word : Word} : ofWord? word = none ↔ 22 ≤ word.toNat := by
  simp [ofWord?, table]

theorem ofWord?_eq_some_iff {word : Word} {op : Operation} :
    ofWord? word = some op ↔ word = op.code := by
  constructor
  · intro named
    have below : word.toNat < 22 := by
      by_cases small : word.toNat < 22
      · exact small
      · rw [ofWord?_eq_none_iff.mpr (by omega)] at named
        contradiction
    have listed : ∀ n : Fin 22, ∃ o : Operation, table[n.val]? = some o ∧ o.code.toNat = n.val := by
      decide
    obtain ⟨o, at_n, numbered⟩ := listed ⟨word.toNat, below⟩
    have same : o = op := by
      simp only [ofWord?] at named
      rw [at_n] at named
      exact Option.some.inj named
    subst same
    exact UInt16.toNat_inj.mp numbered.symm
  · rintro rfl
    exact ofWord?_code op

end Operation

end WordMachine
