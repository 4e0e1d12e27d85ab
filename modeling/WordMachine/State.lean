import WordMachine.Memory
import WordMachine.Operand

/-!
The state of a machine: all that a program can change, and all that a snapshot
holds. The stack is a list with its top first.
-/
namespace WordMachine

structure State where
  pc : Word
  registers : Registers
  /-- The top comes first. -/
  stack : List Word
  memory : Memory
deriving DecidableEq

namespace State

/-- A machine that is about to run what is in its memory. -/
def start (memory : Memory) : State := ⟨0, Registers.zero, [], memory⟩

/-- The word in a register; `none` if there is no such register. -/
def register? (s : State) (index : Nat) : Option Word := s.registers[index]?

/-- The state with a word put in a register; `none` if there is no such register. -/
def setRegister? (s : State) (index : Nat) (word : Word) : Option State :=
  if inside : index < 8 then some { s with registers := s.registers.set index word inside } else none

end State

end WordMachine
