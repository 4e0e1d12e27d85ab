import WordMachine.Fault
import WordMachine.Instruction
import WordMachine.State

/-!
What instructions do to a state. `State.fetch` reads the instruction at the
program counter with all its operands. `State.perform` carries out those that
need no device: sources are looked up in the order of the operands, the
destination last, and a fault leaves the state as it was, except that `pop` has
taken the top off by the time it looks at its destination. `State.receive`
completes `in` once a word has arrived.
-/
namespace WordMachine

namespace State

/-- The instruction at the program counter. -/
def fetch (s : State) : Except Fault Instruction :=
  match s.memory.read? s.pc.toNat with
  | none => .error (.addressOutOfRange s.pc s.pc.toNat)
  | some word =>
    match Operation.ofWord? word with
    | none => .error (.unknownOpcode s.pc word)
    | some op =>
      match s.memory.slice? (s.pc.toNat + 1) op.arity with
      | none => .error (.addressOutOfRange s.pc Memory.size)
      | some operands => .ok (op.apply operands)

/-- The address after an instruction of the given width at the program counter. -/
def after (s : State) (width : Nat) : Word := s.pc + UInt16.ofNat width

def fail (s : State) (fault : Fault) : State × Status := (s, .faulted fault)

def goto (s : State) (target : Word) : State × Status := ({ s with pc := target }, .running)

/-- What follows if an operand has a value. -/
@[inline] def withValue (s : State) (operand : Word) (next : Word → State × Status) : State × Status :=
  match s.registers.resolve? operand with
  | some value => next value
  | none => s.fail (.invalidOperand s.pc operand)

/-- A value goes to the register that a destination names, and the program to
    the instruction after one of the given width. -/
def assign (s : State) (destination value : Word) (width : Nat) : State × Status :=
  match Operand.classify destination with
  | .register ⟨index, inside⟩ =>
    ({ s with registers := s.registers.set index value inside, pc := s.after width }, .running)
  | _ => s.fail (.invalidRegister s.pc destination)

/-- A value goes to an address, and the program to the instruction after one of
    the given width. -/
def store (s : State) (address value : Word) (width : Nat) : State × Status :=
  match s with
  | ⟨pc, registers, stack, memory⟩ =>
    match memory.write? address.toNat value with
    | some written => (⟨pc + UInt16.ofNat width, registers, stack, written⟩, .running)
    | none => fail ⟨pc, registers, stack, memory⟩ (.addressOutOfRange pc address.toNat)

/-- The effect of an instruction; `out` and `in` need a console and leave the
    state as it is. -/
def perform (s : State) : Instruction → State × Status
  | .halt => (s, .halted)
  | .set destination source => s.withValue source fun value => s.assign destination value 3
  | .push source => s.withValue source fun value =>
    ({ s with stack := value :: s.stack, pc := s.after 2 }, .running)
  | .pop destination =>
    match s.stack with
    | [] => s.fail (.emptyStack s.pc)
    | value :: rest => assign { s with stack := rest } destination value 2
  | .binary op destination left right =>
    s.withValue left fun a => s.withValue right fun b =>
      match op.eval a b with
      | some value => s.assign destination value 4
      | none => s.fail (.divisionByZero s.pc)
  | .jmp target => s.withValue target s.goto
  | .jt condition target => s.withValue condition fun value =>
    if value ≠ 0 then s.withValue target s.goto else s.goto (s.after 3)
  | .jf condition target => s.withValue condition fun value =>
    if value = 0 then s.withValue target s.goto else s.goto (s.after 3)
  | .not destination source => s.withValue source fun value =>
    s.assign destination (Word.complement value) 3
  | .rmem destination address => s.withValue address fun a =>
    match s.memory.read? a.toNat with
    | some value => s.assign destination value 3
    | none => s.fail (.addressOutOfRange s.pc a.toNat)
  | .wmem address source => s.withValue address fun a => s.withValue source fun value =>
    s.store a value 3
  | .call target => s.withValue target fun a =>
    ({ s with stack := s.after 2 :: s.stack, pc := a }, .running)
  | .ret =>
    match s.stack with
    | [] => (s, .halted)
    | target :: rest => ({ s with stack := rest, pc := target }, .running)
  | .noop => s.goto (s.after 1)
  | .out _ | .input _ => (s, .running)

/-- The effect of `in` once a word has arrived. The destination is the operand
    at the program counter as it is now, and a literal names a cell. -/
def receive (s : State) (word : Word) : State × Status :=
  match s.memory.read? (s.pc.toNat + 1) with
  | none => s.fail (.addressOutOfRange s.pc (s.pc.toNat + 1))
  | some destination =>
    match Operand.classify destination with
    | .register ⟨index, inside⟩ =>
      ({ s with registers := s.registers.set index word inside, pc := s.after 2 }, .running)
    | .literal address => s.store address word 2
    | .invalid operand => s.fail (.invalidRegister s.pc operand)

end State

end WordMachine
