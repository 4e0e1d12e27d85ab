import Mathlib.Algebra.Group.Nat.Defs
import WordMachine.Proofs.Machine.Outcome

/-!
A machine that checks its arithmetic. It does what the machine does, but wherever that works
out an address, picks a register, adds, multiplies or divides, it first looks whether the
number is in range, and it traps if not. It never does, and comes to what the machine comes
to (`Machine.stepChecked_eq`, `Machine.runChecked_eq`), since an instruction that was
fetched, or whose destination was found, has all its cells in memory. With the size of
memory this is `Machine.arithmetic_in_range`.
-/
namespace WordMachine

/-- Why a machine that checks its arithmetic traps. -/
inductive Trap
  /-- A smaller number would be taken from a greater one. -/
  | difference (a b : Nat)
  /-- There is no register with this number. -/
  | register (index : Nat)
  /-- A sum or a product does not fit in 32 bits. -/
  | overflow (n : Nat)
  | divisionByZero
  /-- An address beyond the one behind the last cell comes next. -/
  | address (n : Nat)
  /-- There is no cell at the literal destination of `in`. -/
  | cell (address : Nat)
deriving DecidableEq

/-! ### Numbers -/

namespace Trap

def subtract (a b : Nat) : Except Trap Nat :=
  if b ≤ a then .ok (a - b) else .error (.difference a b)

/-- A number of 32 bits. -/
def fit (n : Nat) : Except Trap Nat :=
  if n < 2 ^ 32 then .ok n else .error (.overflow n)

def remainder (a b : Nat) : Except Trap Nat :=
  if b = 0 then .error .divisionByZero else .ok (a % b)

/-- The address so many cells behind another. -/
def advance (pc : Word) (width : Nat) : Except Trap Word :=
  if pc.toNat + width ≤ 32768 then .ok (UInt16.ofNat (pc.toNat + width)) else .error (.address (pc.toNat + width))

theorem subtract_eq {a b : Nat} (least : b ≤ a) : subtract a b = .ok (a - b) := if_pos least

theorem fit_eq {n : Nat} (small : n < 2 ^ 32) : fit n = .ok n := if_pos small

theorem remainder_eq {a b : Nat} (nonzero : b ≠ 0) : remainder a b = .ok (a % b) := if_neg nonzero

theorem advance_eq {s : State} {width : Nat} (room : s.pc.toNat + width ≤ Memory.size) :
    advance s.pc width = .ok (s.after width) := by
  have room : s.pc.toNat + width ≤ 32768 := room
  rw [advance, if_pos room, State.after, UInt16.ofNat_add, UInt16.ofNat_toNat]

example : advance 32767 2 = .error (.address 32769) := rfl

end Trap

/-- The result of an operation, with its sum or product in range and its divisor not zero. -/
def BinaryOperation.evalChecked (op : BinaryOperation) (a b : Word) : Except Trap (Option Word) :=
  match op with
  | .add => do return some (Word.reduce (← Trap.fit (a.toNat + b.toNat)))
  | .mult => do return some (Word.reduce (← Trap.fit (a.toNat * b.toNat)))
  | .mod => if b = 0 then .ok none else do return some (Word.reduce (← Trap.remainder a.toNat b.toNat))
  | .eq | .gt | .and | .or => .ok (op.eval a b)

theorem BinaryOperation.evalChecked_eq (op : BinaryOperation) (a b : Word) : op.evalChecked a b = .ok (op.eval a b) := by
  have left : a.toNat < 65536 := a.toNat_lt
  have right : b.toNat < 65536 := b.toNat_lt
  cases op with
  | eq | gt | and | or => rfl
  | add =>
    have small : a.toNat + b.toNat < 2 ^ 32 := by omega
    rw [evalChecked, Trap.fit_eq small]
    rfl
  | mult =>
    have most : a.toNat * b.toNat ≤ 65535 * 65535 :=
      Nat.mul_le_mul (Nat.le_of_lt_succ left) (Nat.le_of_lt_succ right)
    have small : a.toNat * b.toNat < 2 ^ 32 := Nat.lt_of_le_of_lt most (by decide)
    rw [evalChecked, Trap.fit_eq small]
    rfl
  | mod =>
    by_cases zero : b = 0
    · rw [evalChecked, eval, if_pos zero, if_pos zero]
    · have nonzero : b.toNat ≠ 0 := fun same => zero (UInt16.toNat_inj.mp same)
      rw [evalChecked, eval, if_neg zero, if_neg zero, Trap.remainder_eq nonzero]
      rfl

/-! ### Operands -/

/-- What an operand word stands for, before anyone knows whether there is such a register. -/
inductive Operand.Named
  | literal (value : Word)
  | register (index : Nat)
  | invalid (word : Word)

namespace Operand

def named : Operand → Named
  | literal value => .literal value
  | register index => .register index.val
  | invalid word => .invalid word

def classifyChecked (word : Word) : Except Trap Named :=
  if word ≤ Word.mask then .ok (.literal word)
  else do
    let index ← Trap.subtract word.toNat Registers.base.toNat
    if index < 8 then return .register index else return .invalid word

theorem classifyChecked_eq (word : Word) : classifyChecked word = .ok (classify word).named := by
  have base : Registers.base.toNat = 32768 := rfl
  have above (least : 32768 ≤ word.toNat) : ¬ word ≤ Word.mask := by
    rw [Word.le_mask_iff]
    exact Nat.not_lt.mpr least
  have apart (index : Nat) (is : word.toNat = 32768 + index) :
      Trap.subtract word.toNat Registers.base.toNat = .ok index := by
    rw [base, Trap.subtract_eq (by omega), is, Nat.add_sub_cancel_left]
  rcases classify_cases word with ⟨below, literal⟩ | ⟨index, is, register⟩ | ⟨beyond, invalid⟩
  · rw [literal, classifyChecked, if_pos (Word.le_mask_iff.mpr below)]
    rfl
  · rw [register, classifyChecked, if_neg (above (by omega)), apart index is]
    exact if_pos index.isLt
  · obtain ⟨index, is⟩ := Nat.exists_eq_add_of_le (Nat.le_trans (by decide : 32768 ≤ 32776) beyond)
    have outside : ¬ index < 8 := by omega
    rw [invalid, classifyChecked, if_neg (above (by omega)), apart index is]
    exact if_neg outside

end Operand

namespace Registers

def getChecked (registers : Registers) (index : Nat) : Except Trap Word :=
  if inside : index < 8 then .ok registers[index] else .error (.register index)

def setChecked (registers : Registers) (index : Nat) (value : Word) : Except Trap Registers :=
  if inside : index < 8 then .ok (registers.set index value) else .error (.register index)

theorem getChecked_eq (registers : Registers) {index : Nat} (inside : index < 8) :
    registers.getChecked index = .ok registers[index] :=
  dif_pos inside

theorem setChecked_eq (registers : Registers) (index : Fin 8) (value : Word) :
    registers.setChecked index.val value = .ok (registers.set index.val value index.isLt) :=
  dif_pos index.isLt

def resolveChecked (registers : Registers) (word : Word) : Except Trap (Option Word) := do
  match ← Operand.classifyChecked word with
  | .literal value => return some value
  | .register index => return some (← registers.getChecked index)
  | .invalid _ => return none

theorem resolveChecked_eq (registers : Registers) (word : Word) :
    registers.resolveChecked word = .ok (registers.resolve? word) := by
  rw [resolveChecked, resolve?, Operand.classifyChecked_eq]
  cases Operand.classify word with
  | literal | invalid => rfl
  | register index =>
    simp only [Operand.named, Operand.value?, bind, Except.bind, getChecked_eq _ index.isLt]
    rfl

end Registers

/-! ### Instructions -/

namespace State

variable {s : State}

def withValueChecked (s : State) (operand : Word) (next : Word → Except Trap (State × Status)) :
    Except Trap (State × Status) := do
  match ← s.registers.resolveChecked operand with
  | some value => next value
  | none => return s.fail (.invalidOperand s.pc operand)

def assignChecked (s : State) (destination value : Word) (width : Nat) : Except Trap (State × Status) := do
  match ← Operand.classifyChecked destination with
  | .register index =>
    let registers ← s.registers.setChecked index value
    let next ← Trap.advance s.pc width
    return ({ s with registers := registers, pc := next }, .running)
  | _ => return s.fail (.invalidRegister s.pc destination)

def storeChecked (s : State) (address value : Word) (width : Nat) : Except Trap (State × Status) := do
  match s.memory.write? address.toNat value with
  | some memory =>
    let next ← Trap.advance s.pc width
    return ({ s with memory := memory, pc := next }, .running)
  | none => return s.fail (.addressOutOfRange s.pc address.toNat)

def passChecked (s : State) (width : Nat) : Except Trap (State × Status) := do
  let next ← Trap.advance s.pc width
  return s.goto next

def performChecked (s : State) : Instruction → Except Trap (State × Status)
  | .halt => return (s, .halted)
  | .set destination source => s.withValueChecked source fun value => s.assignChecked destination value 3
  | .push source => s.withValueChecked source fun value => do
    let next ← Trap.advance s.pc 2
    return ({ s with stack := value :: s.stack, pc := next }, .running)
  | .pop destination =>
    match s.stack with
    | [] => return s.fail (.emptyStack s.pc)
    | value :: rest => assignChecked { s with stack := rest } destination value 2
  | .binary op destination left right =>
    s.withValueChecked left fun a => s.withValueChecked right fun b => do
      match ← op.evalChecked a b with
      | some value => s.assignChecked destination value 4
      | none => return s.fail (.divisionByZero s.pc)
  | .jmp target => s.withValueChecked target fun place => return s.goto place
  | .jt condition target => s.withValueChecked condition fun value =>
    if value ≠ 0 then s.withValueChecked target fun place => return s.goto place else s.passChecked 3
  | .jf condition target => s.withValueChecked condition fun value =>
    if value = 0 then s.withValueChecked target fun place => return s.goto place else s.passChecked 3
  | .not destination source => s.withValueChecked source fun value =>
    s.assignChecked destination (Word.complement value) 3
  | .rmem destination address => s.withValueChecked address fun a =>
    match s.memory.read? a.toNat with
    | some value => s.assignChecked destination value 3
    | none => return s.fail (.addressOutOfRange s.pc a.toNat)
  | .wmem address source => s.withValueChecked address fun a => s.withValueChecked source fun value =>
    s.storeChecked a value 3
  | .call target => s.withValueChecked target fun a => do
    let back ← Trap.advance s.pc 2
    return ({ s with stack := back :: s.stack, pc := a }, .running)
  | .ret =>
    match s.stack with
    | [] => return (s, .halted)
    | target :: rest => return ({ s with stack := rest, pc := target }, .running)
  | .noop => s.passChecked 1
  | .out _ | .input _ => return (s, .running)

/-- A literal destination that names no cell traps, where `State.receive` would fault. -/
def receiveChecked (s : State) (word : Word) : Except Trap (State × Status) := do
  match s.memory.read? (s.pc.toNat + 1) with
  | none => return s.fail (.addressOutOfRange s.pc (s.pc.toNat + 1))
  | some destination =>
    match ← Operand.classifyChecked destination with
    | .register index =>
      let registers ← s.registers.setChecked index word
      let next ← Trap.advance s.pc 2
      return ({ s with registers := registers, pc := next }, .running)
    | .literal address =>
      match s.memory.write? address.toNat word with
      | some memory =>
        let next ← Trap.advance s.pc 2
        return ({ s with memory := memory, pc := next }, .running)
      | none => throw (.cell address.toNat)
    | .invalid operand => return s.fail (.invalidRegister s.pc operand)

theorem withValueChecked_eq {operand : Word} {next : Word → State × Status} {nextChecked : Word → Except Trap (State × Status)}
    (same : ∀ value, nextChecked value = .ok (next value)) :
    s.withValueChecked operand nextChecked = .ok (s.withValue operand next) := by
  rw [withValueChecked, withValue, Registers.resolveChecked_eq]
  cases s.registers.resolve? operand with
  | some value => exact same value
  | none => rfl

theorem assignChecked_eq {destination value : Word} {width : Nat} (room : s.pc.toNat + width ≤ Memory.size) :
    s.assignChecked destination value width = .ok (s.assign destination value width) := by
  rw [assignChecked, assign, Operand.classifyChecked_eq]
  cases Operand.classify destination with
  | literal | invalid => rfl
  | register index =>
    simp only [Operand.named, bind, Except.bind, Registers.setChecked_eq, Trap.advance_eq room]
    rfl

theorem storeChecked_eq {address value : Word} {width : Nat} (room : s.pc.toNat + width ≤ Memory.size) :
    s.storeChecked address value width = .ok (s.store address value width) := by
  rw [storeChecked, Trap.advance_eq room]
  obtain ⟨pc, registers, stack, memory⟩ := s
  simp only [store]
  cases memory.write? address.toNat value <;> rfl

theorem passChecked_eq {width : Nat} (room : s.pc.toNat + width ≤ Memory.size) :
    s.passChecked width = .ok (s.goto (s.after width)) := by
  rw [passChecked, Trap.advance_eq room]
  rfl

/-- An instruction with all its cells in memory does not trap. -/
theorem performChecked_eq {i : Instruction} (room : s.pc.toNat + i.width ≤ Memory.size) :
    s.performChecked i = .ok (s.perform i) := by
  cases i with
  | halt | out | input => rfl
  | noop => exact passChecked_eq room
  | set destination source => exact withValueChecked_eq fun value => assignChecked_eq room
  | push source =>
    have room : s.pc.toNat + 2 ≤ Memory.size := room
    refine withValueChecked_eq fun value => ?_
    rw [Trap.advance_eq room]
    rfl
  | pop destination =>
    rw [performChecked, perform]
    cases s.stack with
    | nil => rfl
    | cons value rest => exact assignChecked_eq room
  | binary op destination left right =>
    rw [Instruction.width_binary] at room
    refine withValueChecked_eq fun a => withValueChecked_eq fun b => ?_
    rw [BinaryOperation.evalChecked_eq]
    cases op.eval a b with
    | some value => exact assignChecked_eq room
    | none => rfl
  | jmp target => exact withValueChecked_eq fun place => rfl
  | jt condition target | jf condition target =>
    refine withValueChecked_eq fun value => ?_
    split
    · exact withValueChecked_eq fun place => rfl
    · exact passChecked_eq room
  | not destination source => exact withValueChecked_eq fun value => assignChecked_eq room
  | rmem destination address =>
    refine withValueChecked_eq fun a => ?_
    cases s.memory.read? a.toNat with
    | some value => exact assignChecked_eq room
    | none => rfl
  | wmem address source => exact withValueChecked_eq fun a => withValueChecked_eq fun value => storeChecked_eq room
  | call target =>
    have room : s.pc.toNat + 2 ≤ Memory.size := room
    refine withValueChecked_eq fun a => ?_
    rw [Trap.advance_eq room]
    rfl
  | ret =>
    rw [performChecked, perform]
    cases s.stack <;> rfl

/-- In no state at all a word traps that `in` was given: it finds its destination only if both
    its cells are in memory. -/
theorem receiveChecked_eq (s : State) (word : Word) : s.receiveChecked word = .ok (s.receive word) := by
  rw [receiveChecked, receive]
  cases held : s.memory.read? (s.pc.toNat + 1) with
  | none => rfl
  | some destination =>
    have room : s.pc.toNat + 2 ≤ Memory.size := inside_of_word? (k := 1) held
    simp only
    rw [Operand.classifyChecked_eq]
    rcases Operand.classify_cases destination with ⟨below, literal⟩ | ⟨index, named, register⟩ | ⟨beyond, invalid⟩
    · rw [literal]
      obtain ⟨pc, registers, stack, memory⟩ := s
      simp only [Operand.named, bind, Except.bind, store]
      cases put : memory.write? destination.toNat word with
      | some written =>
        rw [Trap.advance_eq (s := ⟨pc, registers, stack, memory⟩) room]
        rfl
      | none => exact absurd below (Nat.not_lt.mpr (Memory.write?_eq_none_iff.mp put))
    · rw [register]
      simp only [Operand.named, bind, Except.bind, Registers.setChecked_eq, Trap.advance_eq room]
      rfl
    · rw [invalid]
      rfl

end State

/-! ### Memory -/

/-- Memory has all its cells, and each can be read and written, but nothing else. -/
structure Memory.Whole (memory : Memory) : Prop where
  full : memory.words.length = 32768
  readable : ∀ address, (memory.read? address).isSome ↔ address < 32768
  writable : ∀ address word, (∃ written, memory.write? address word = some written ∧
    written.read? address = some word) ↔ address < 32768

theorem Memory.whole (memory : Memory) : memory.Whole := by
  refine ⟨memory.length_words, fun address => ?_, fun address word => ?_⟩
  · rw [Option.isSome_iff_ne_none, Ne, read?_eq_none_iff]
    exact Nat.not_le
  · constructor
    · rintro ⟨written, done, -⟩
      refine Nat.lt_of_not_le fun beyond => ?_
      rw [write?_eq_none_iff.mpr beyond] at done
      cases done
    · intro inside
      cases done : memory.write? address word with
      | none => exact absurd inside (Nat.not_lt.mpr (write?_eq_none_iff.mp done))
      | some written =>
        refine ⟨written, rfl, ?_⟩
        rw [read?_of_write? done, if_pos rfl]

theorem Memory.exists_ofDump_iff {words : List Word} :
    (∃ memory, ofDump words = .ok memory) ↔ words.length = 32768 := by
  unfold ofDump ofWords?
  constructor
  · rintro ⟨memory, dumped⟩
    split at dumped
    · next given =>
      split at given
      · next full => exact full
      · cases given
    · cases dumped
  · intro full
    have all : words.toArray.size = size := full
    rw [dif_pos all]
    exact ⟨_, rfl⟩

theorem Registers.exists_ofWords?_iff {words : List Word} :
    (∃ registers, ofWords? words = some registers) ↔ words.length = 8 := by
  unfold ofWords?
  constructor
  · rintro ⟨registers, given⟩
    split at given
    · next eight => exact eight
    · cases given
  · intro eight
    have all : words.toArray.size = 8 := eight
    rw [dif_pos all]
    exact ⟨_, rfl⟩

/-- A snapshot is restored only with its program counter in memory, eight registers and a word
    for every cell. -/
theorem Snapshot.exists_restore_iff {snapshot : Snapshot} : (∃ s, snapshot.restore = .ok s) ↔
    snapshot.pc.toNat < 32768 ∧ snapshot.registers.length = 8 ∧ snapshot.memory.length = 32768 := by
  constructor
  · rintro ⟨s, restored⟩
    unfold restore at restored
    split at restored
    · next inside =>
      split at restored
      · cases restored
      · next registers eight =>
        split at restored
        · cases restored
        · next memory full =>
          exact ⟨inside, Registers.exists_ofWords?_iff.mp ⟨_, eight⟩, Memory.exists_ofDump_iff.mp ⟨_, full⟩⟩
    · cases restored
  · rintro ⟨inside, eight, full⟩
    have inside : snapshot.pc.toNat < Memory.size := inside
    obtain ⟨registers, given⟩ := Registers.exists_ofWords?_iff.mpr eight
    obtain ⟨memory, dumped⟩ := Memory.exists_ofDump_iff.mpr full
    simp only [restore, if_pos inside, given, dumped]
    exact ⟨_, rfl⟩

/-! ### Steps and runs -/

namespace Machine

def outputChecked (state : State) (console : Console) (source : Word) :
    Except Trap (State × Console × Except DeviceError Status) := do
  match ← state.registers.resolveChecked source with
  | none => return (state, console, .ok (.faulted (.invalidOperand state.pc source)))
  | some word =>
    match console.emit word with
    | (console, some error) => return (state, console, .error error)
    | (console, none) =>
      let next ← Trap.advance state.pc 2
      return ({ state with pc := next }, console, .ok .running)

def inputChecked (state : State) (console : Console) : Except Trap (State × Console × Except DeviceError Status) := do
  match console.nextInput state with
  | (.failed error, console, state) => return (state, console, .error error)
  | (.closed, console, state) => return (state, console, .ok .inputClosed)
  | (.word word, console, state) =>
    let (state, status) ← state.receiveChecked word
    return (state, console, .ok status)

def executeChecked (state : State) (console : Console) : Except Trap (State × Console × Except DeviceError Status) := do
  match state.fetch with
  | .error fault => return (state, console, .ok (.faulted fault))
  | .ok (.out source) => outputChecked state console source
  | .ok (.input _) => inputChecked state console
  | .ok instruction =>
    let (state, status) ← state.performChecked instruction
    return (state, console, .ok status)

def stepChecked (m : Machine) : Except Trap (Machine × Except DeviceError Status) := do
  match m with
  | ⟨state, console, .running, steps, maxSteps⟩ =>
    match ← executeChecked state console with
    | (state, console, .ok status) => return (⟨state, console, status, steps + 1, maxSteps⟩, .ok status)
    | (state, console, .error error) => return (⟨state, console, .running, steps, maxSteps⟩, .error error)
  | ⟨state, console, status, steps, maxSteps⟩ =>
    return (⟨state, console, status, steps, maxSteps⟩, .ok status)

def runForChecked (m : Machine) : (budget : Nat) → Except Trap (Machine × Except DeviceError Status)
  | 0 => return (m, .ok m.status)
  | budget + 1 => do
    if m.stopped then return (m, .ok m.status)
    match ← m.stepChecked with
    | (after, .ok _) => after.runForChecked budget
    | (after, .error error) => return (after, .error error)

def runChecked (m : Machine) (budget : Option Nat) : Except Trap (Machine × Except DeviceError Status) :=
  m.runForChecked (budget.getD longestRun)

theorem outputChecked_eq {state : State} {console : Console} {source : Word}
    (room : state.pc.toNat + 2 ≤ Memory.size) :
    outputChecked state console source = .ok (output state console source) := by
  rw [outputChecked, output, Registers.resolveChecked_eq, Trap.advance_eq room]
  cases state.registers.resolve? source with
  | none => rfl
  | some word =>
    simp only [bind, Except.bind]
    rcases console.emit word with ⟨after, _ | error⟩ <;> rfl

theorem inputChecked_eq (state : State) (console : Console) :
    inputChecked state console = .ok (input state console) := by
  rw [inputChecked, input]
  rcases console.nextInput state with ⟨word | _ | error, after, t⟩
  · simp only [bind, Except.bind, State.receiveChecked_eq]
    rfl
  · rfl
  · rfl

theorem executeChecked_eq (state : State) (console : Console) :
    executeChecked state console = .ok (execute state console) := by
  rw [executeChecked, execute]
  cases fetched : state.fetch with
  | error fault => rfl
  | ok i =>
    have room := (State.fetch_eq_ok fetched).2
    have performed := State.performChecked_eq room
    cases i with
    | out source => exact outputChecked_eq room
    | input destination => exact inputChecked_eq state console
    | _ =>
      simp only [bind, Except.bind, performed]
      rfl

/-- No step traps. -/
theorem stepChecked_eq (m : Machine) : m.stepChecked = .ok m.step := by
  obtain ⟨state, console, status, steps, maxSteps⟩ := m
  cases status with
  | halted | faulted | inputClosed => rfl
  | running =>
    simp only [stepChecked, step, executeChecked_eq, bind, Except.bind]
    rcases execute state console with ⟨t, after, status | error⟩ <;> rfl

theorem runForChecked_eq (m : Machine) (budget : Nat) : m.runForChecked budget = .ok (m.runFor budget) := by
  induction budget generalizing m with
  | zero => rfl
  | succ budget ih =>
    rw [runForChecked, runFor, stepChecked_eq]
    by_cases still : m.stopped = true
    · rw [if_pos still, if_pos still]
      rfl
    · rw [if_neg still, if_neg still]
      simp only [bind, Except.bind]
      rcases m.step with ⟨after, status | error⟩
      · rfl
      · exact ih after

/-- No run traps. -/
theorem runChecked_eq (m : Machine) (budget : Option Nat) : m.runChecked budget = .ok (m.run budget) :=
  m.runForChecked_eq _

/-- What is asked of a machine from outside. -/
inductive Move
  | step
  | run (budget : Option Nat)

def move (m : Machine) : Move → Machine
  | .step => m.step.1
  | .run budget => (m.run budget).1

def moveChecked (m : Machine) : Move → Except Trap Machine
  | .step => do return (← m.stepChecked).1
  | .run budget => do return (← m.runChecked budget).1

/-- The machine after the given steps and runs. -/
def play (m : Machine) (moves : List Move) : Machine := moves.foldl move m

def playChecked (m : Machine) (moves : List Move) : Except Trap Machine := moves.foldlM moveChecked m

theorem moveChecked_eq (m : Machine) (asked : Move) : m.moveChecked asked = .ok (m.move asked) := by
  cases asked with
  | step =>
    rw [moveChecked, stepChecked_eq]
    rfl
  | run budget =>
    rw [moveChecked, runChecked_eq]
    rfl

theorem playChecked_eq (m : Machine) (moves : List Move) : m.playChecked moves = .ok (m.play moves) := by
  induction moves generalizing m with
  | nil => rfl
  | cons asked moves ih =>
    rw [playChecked, List.foldlM_cons, moveChecked_eq]
    exact ih (m.move asked)

/-- Whatever its state, its console and the disk are, a machine that checks its arithmetic comes
    by any steps and runs to what the machine comes to, and does not trap; nor would it
    for any other words. Memory is whole then, and what is loaded has a word for every cell of it
    and a program counter in it. -/
theorem arithmetic_in_range (m : Machine) (moves : List Move) :
    m.playChecked moves = .ok (m.play moves) ∧
      (∀ (op : BinaryOperation) (a b : Word), op.evalChecked a b = .ok (op.eval a b)) ∧
      (m.play moves).state.memory.Whole ∧
      ∀ snapshot : Snapshot, (∃ s, snapshot.restore = .ok s) ↔
        snapshot.pc.toNat < 32768 ∧ snapshot.registers.length = 8 ∧ snapshot.memory.length = 32768 :=
  ⟨m.playChecked_eq moves, fun op a b => op.evalChecked_eq a b, Memory.whole _, fun _ => Snapshot.exists_restore_iff⟩

end Machine

end WordMachine
