import WordMachine.Operation

/-!
Instructions: an operation together with its operand words. `Operation.apply`
builds the instruction from as many operands as the operation takes, and
`Instruction.operation` and `Instruction.operands` give both back
(`operation_apply`, `operands_apply`). Operations that compute a word from two
are one case, told apart by a `BinaryOperation`.
-/
namespace WordMachine

/-- An operation with its operand words, a destination before the sources. -/
inductive Instruction
  | halt
  | set (destination source : Word)
  | push (source : Word)
  | pop (destination : Word)
  | binary (operation : BinaryOperation) (destination left right : Word)
  | jmp (target : Word)
  | jt (condition target : Word)
  | jf (condition target : Word)
  | not (destination source : Word)
  | rmem (destination address : Word)
  | wmem (address source : Word)
  | call (target : Word)
  | ret
  | out (source : Word)
  | input (destination : Word)
  | noop
deriving DecidableEq

/-- The operation in the table that computes a binary operation. -/
def BinaryOperation.operation : BinaryOperation → Operation
  | .eq => .eq | .gt => .gt | .add => .add | .mult => .mult | .mod => .mod | .and => .and | .or => .or

namespace Instruction

def operation : Instruction → Operation
  | halt => .halt | set .. => .set | push .. => .push | pop .. => .pop
  | binary op .. => op.operation
  | jmp .. => .jmp | jt .. => .jt | jf .. => .jf | not .. => .not | rmem .. => .rmem
  | wmem .. => .wmem | call .. => .call | ret => .ret | out .. => .out | input .. => .input
  | noop => .noop

/-- The operand words of an instruction, in the order of memory. -/
def operands : Instruction → List Word
  | halt | ret | noop => []
  | push a | pop a | jmp a | call a | out a | input a => [a]
  | set a b | jt a b | jf a b | not a b | rmem a b | wmem a b => [a, b]
  | binary _ a b c => [a, b, c]

/-- The cells that an instruction takes up. -/
def width (i : Instruction) : Nat := 1 + i.operation.arity

theorem length_operands (i : Instruction) : i.operands.length = i.operation.arity := by
  rcases i with _ | _ | _ | _ | ⟨op, _⟩ | _ | _ | _ | _ | _ | _ | _ | _ | _ | _ | _ <;>
    first | rfl | (cases op <;> rfl)

end Instruction

/-- The instruction of an operation and its operands. -/
def Operation.apply : (op : Operation) → Vector Word op.arity → Instruction
  | .halt, _ => .halt
  | .set, v => .set v[0] v[1]
  | .push, v => .push v[0]
  | .pop, v => .pop v[0]
  | .eq, v => .binary .eq v[0] v[1] v[2]
  | .gt, v => .binary .gt v[0] v[1] v[2]
  | .jmp, v => .jmp v[0]
  | .jt, v => .jt v[0] v[1]
  | .jf, v => .jf v[0] v[1]
  | .add, v => .binary .add v[0] v[1] v[2]
  | .mult, v => .binary .mult v[0] v[1] v[2]
  | .mod, v => .binary .mod v[0] v[1] v[2]
  | .and, v => .binary .and v[0] v[1] v[2]
  | .or, v => .binary .or v[0] v[1] v[2]
  | .not, v => .not v[0] v[1]
  | .rmem, v => .rmem v[0] v[1]
  | .wmem, v => .wmem v[0] v[1]
  | .call, v => .call v[0]
  | .ret, _ => .ret
  | .out, v => .out v[0]
  | .input, v => .input v[0]
  | .noop, _ => .noop

@[simp] theorem Operation.operation_apply (op : Operation) (v : Vector Word op.arity) :
    (op.apply v).operation = op := by
  cases op <;> rfl

@[simp] theorem Operation.operands_apply (op : Operation) (v : Vector Word op.arity) :
    (op.apply v).operands = v.toList := by
  obtain ⟨⟨words⟩, length⟩ := v
  cases op with
  | halt | ret | noop =>
    match words, length with
    | [], _ => rfl
  | push | pop | jmp | call | out | input =>
    match words, length with
    | [_], _ => rfl
  | set | jt | jf | not | rmem | wmem =>
    match words, length with
    | [_, _], _ => rfl
  | eq | gt | add | mult | mod | and | or =>
    match words, length with
    | [_, _, _], _ => rfl

end WordMachine
