import WordMachine.Word

/-!
Faults, each with the address of the instruction that caused it, and the
status of a machine, which a fault ends.
-/
namespace WordMachine

inductive Fault
  | unknownOpcode (pc word : Word)
  | emptyStack (pc : Word)
  | invalidOperand (pc word : Word)
  | invalidRegister (pc word : Word)
  | divisionByZero (pc : Word)
  | addressOutOfRange (pc : Word) (address : Nat)
deriving DecidableEq

namespace Fault

/-- The address of the instruction that caused the fault. -/
def pc : Fault → Word
  | unknownOpcode pc _ | emptyStack pc | invalidOperand pc _ | invalidRegister pc _
  | divisionByZero pc | addressOutOfRange pc _ => pc

def message : Fault → String
  | unknownOpcode pc word => s!"unknown opcode {word.toNat} at {pc.toNat}"
  | emptyStack pc => s!"pop from empty stack at {pc.toNat}"
  | invalidOperand pc word => s!"undefined operand {word.toNat} at {pc.toNat}"
  | invalidRegister pc word => s!"operand {word.toNat} at {pc.toNat} is not a register"
  | divisionByZero pc => s!"mod by zero at {pc.toNat}"
  | addressOutOfRange pc address => s!"address {address} out of range at {pc.toNat}"

end Fault

/-- How a machine stands. All but `running` are final. -/
inductive Status
  | running
  | halted
  | faulted (fault : Fault)
  /-- The program asked for input and there was no more. -/
  | inputClosed
deriving DecidableEq

/-- No instruction follows. -/
def Status.isFinal : Status → Bool
  | running => false
  | _ => true

end WordMachine
