import WordMachine.Machine
import WordMachine.Proofs.Console.Turn

/-!
Single steps. An instruction that is fetched lies in memory with all its operands
(`State.fetch_eq_ok`). A step of a running machine is its instruction, concluded; `in`
asks the console and settles what came of it, and every other instruction does no more
to the console than write to it (`Machine.exists_execute`). Only `in` can end the run for
want of input (`Machine.status_step_of_busy`).
-/
namespace WordMachine

namespace State

/-- The instruction that is fetched begins with its own number, and its operands do not
    run past the last cell. -/
theorem fetch_eq_ok {s : State} {i : Instruction} (fetched : s.fetch = .ok i) :
    s.memory.read? s.pc.toNat = some i.operation.code ∧ s.pc.toNat + i.width ≤ Memory.size := by
  unfold fetch at fetched
  split at fetched
  · cases fetched
  · next word held =>
    split at fetched
    · cases fetched
    · next op named =>
      split at fetched
      · cases fetched
      · next operands cut =>
        cases fetched
        rw [Operation.ofWord?_eq_some_iff] at named
        have room : ¬ Memory.size < s.pc.toNat + 1 + op.arity := by
          intro beyond
          rw [Memory.slice?_eq_none_iff.mpr beyond] at cut
          cases cut
        rw [Instruction.width, Operation.operation_apply]
        exact ⟨by rw [held, named], by omega⟩

/-- No address in memory or behind it wraps around. -/
theorem toNat_after {s : State} {width : Nat} (room : s.pc.toNat + width ≤ Memory.size) :
    (s.after width).toNat = s.pc.toNat + width := by
  have room : s.pc.toNat + width ≤ 32768 := room
  rw [after, UInt16.toNat_add, UInt16.toNat_ofNat']
  omega

/-- An instruction is fetched if its operands do not run past the last cell. -/
theorem exists_fetch {s : State} {word : Word} {op : Operation} (held : s.memory.read? s.pc.toNat = some word)
    (named : Operation.ofWord? word = some op) (room : s.pc.toNat + 1 + op.arity ≤ Memory.size) :
    ∃ operands, s.fetch = .ok (op.apply operands) := by
  cases cut : s.memory.slice? (s.pc.toNat + 1) op.arity with
  | none => exact absurd room (Nat.not_le.mpr (Memory.slice?_eq_none_iff.mp cut))
  | some operands => exact ⟨operands, by simp only [fetch, held, named, cut]⟩

/-- The instruction at the program counter is `in`. -/
def atInput (s : State) : Bool :=
  match s.fetch with
  | .ok (.input _) => true
  | _ => false

theorem atInput_iff {s : State} : s.atInput = true ↔ ∃ destination, s.fetch = .ok (.input destination) := by
  unfold atInput
  constructor
  · intro waits
    split at waits
    · next destination fetched => exact ⟨destination, fetched⟩
    · cases waits
  · rintro ⟨destination, fetched⟩
    rw [fetched]

theorem ne_input_of_busy {s : State} {i : Instruction} (busy : s.atInput = false) (fetched : s.fetch = .ok i)
    (destination : Word) : i ≠ .input destination := by
  rintro rfl
  rw [atInput_iff.mpr ⟨destination, fetched⟩] at busy
  cases busy

/-- An `in` is there with its number, and with its operand in memory. -/
theorem atInput_iff_read? {s : State} :
    s.atInput = true ↔ s.pc.toNat ≤ 32766 ∧ s.memory.read? s.pc.toNat = some 20 := by
  constructor
  · intro waits
    obtain ⟨destination, fetched⟩ := atInput_iff.mp waits
    obtain ⟨held, room⟩ := fetch_eq_ok fetched
    have room : s.pc.toNat + 2 ≤ 32768 := room
    exact ⟨by omega, held⟩
  · rintro ⟨inside, held⟩
    have room : s.pc.toNat + 1 + 1 ≤ 32768 := by omega
    have named : Operation.ofWord? 20 = some .input := rfl
    obtain ⟨operands, fetched⟩ := exists_fetch held named room
    exact atInput_iff.mpr ⟨_, fetched⟩

theorem inside_of_atInput {s : State} (waits : s.atInput = true) : s.pc.toNat < Memory.size := by
  have below := (atInput_iff_read?.mp waits).1
  simp only [Memory.size]
  omega

/-- A word that `in` was given goes to the cell that a literal names. -/
theorem receive_literal {s : State} {word address : Word} {written : Memory}
    (operand : s.memory.read? (s.pc.toNat + 1) = some address) (named : Operand.classify address = .literal address)
    (done : s.memory.write? address.toNat word = some written) :
    s.receive word = ({ s with pc := s.after 2, memory := written }, .running) := by
  obtain ⟨pc, registers, stack, memory⟩ := s
  simp only at operand done
  simp only [receive, operand, named, store, done]
  rfl

/-! ### No instruction but `in` closes the input -/

theorem fail_ne_inputClosed (s : State) (fault : Fault) : (s.fail fault).2 ≠ .inputClosed := by
  simp [fail]

theorem goto_ne_inputClosed (s : State) (target : Word) : (s.goto target).2 ≠ .inputClosed := by
  simp [goto]

theorem withValue_ne_inputClosed (s : State) (operand : Word) {next : Word → State × Status}
    (stays : ∀ value, (next value).2 ≠ .inputClosed) : (s.withValue operand next).2 ≠ .inputClosed := by
  unfold withValue
  split
  · exact stays _
  · exact s.fail_ne_inputClosed _

theorem assign_ne_inputClosed (s : State) (destination value : Word) (width : Nat) :
    (s.assign destination value width).2 ≠ .inputClosed := by
  unfold assign
  split
  · simp
  · exact s.fail_ne_inputClosed _

theorem store_ne_inputClosed (s : State) (address value : Word) (width : Nat) :
    (s.store address value width).2 ≠ .inputClosed := by
  unfold store
  split
  split
  · simp
  · exact fail_ne_inputClosed _ _

theorem receive_ne_inputClosed (s : State) (word : Word) : (s.receive word).2 ≠ .inputClosed := by
  unfold receive
  split
  · exact s.fail_ne_inputClosed _
  · split
    · simp
    · exact s.store_ne_inputClosed _ _ _
    · exact s.fail_ne_inputClosed _

theorem perform_ne_inputClosed (s : State) (i : Instruction) : (s.perform i).2 ≠ .inputClosed := by
  cases i with
  | halt | out | input => simp [perform]
  | noop => exact s.goto_ne_inputClosed _
  | set destination source => exact s.withValue_ne_inputClosed _ fun value => s.assign_ne_inputClosed _ _ _
  | push source => exact s.withValue_ne_inputClosed _ fun value => by simp
  | pop destination =>
    simp only [perform]
    split
    · exact s.fail_ne_inputClosed _
    · exact assign_ne_inputClosed _ _ _ _
  | binary op destination left right =>
    refine s.withValue_ne_inputClosed _ fun a => s.withValue_ne_inputClosed _ fun b => ?_
    split
    · exact s.assign_ne_inputClosed _ _ _
    · exact s.fail_ne_inputClosed _
  | jmp target => exact s.withValue_ne_inputClosed _ fun address => s.goto_ne_inputClosed _
  | jt condition target | jf condition target =>
    refine s.withValue_ne_inputClosed _ fun value => ?_
    split
    · exact s.withValue_ne_inputClosed _ fun address => s.goto_ne_inputClosed _
    · exact s.goto_ne_inputClosed _
  | not destination source => exact s.withValue_ne_inputClosed _ fun value => s.assign_ne_inputClosed _ _ _
  | rmem destination address =>
    refine s.withValue_ne_inputClosed _ fun a => ?_
    split
    · exact s.assign_ne_inputClosed _ _ _
    · exact s.fail_ne_inputClosed _
  | wmem address source =>
    exact s.withValue_ne_inputClosed _ fun a => s.withValue_ne_inputClosed _ fun value => s.store_ne_inputClosed _ _ _
  | call target => exact s.withValue_ne_inputClosed _ fun address => by simp
  | ret =>
    simp only [perform]
    split <;> simp

end State

theorem Status.eq_running {status : Status} (runs : status.isFinal = false) : status = .running := by
  cases status with
  | running => rfl
  | halted | faulted | inputClosed => cases runs

namespace Machine

/-- The machine after an instruction, which counts unless a device failed. -/
def conclude (m : Machine) : State × Console × Except DeviceError Status → Machine
  | (s, console, .ok status) => ⟨s, console, status, m.steps + 1, m.maxSteps⟩
  | (s, console, .error _) => ⟨s, console, m.status, m.steps, m.maxSteps⟩

/-- What `in` makes of what came of the request. -/
def settle : Delivery × Console × State → State × Console × Except DeviceError Status
  | (.failed error, console, s) => (s, console, .error error)
  | (.closed, console, s) => (s, console, .ok .inputClosed)
  | (.word word, console, s) => ((s.receive word).1, console, .ok (s.receive word).2)

@[simp] theorem console_conclude (m : Machine) (done : State × Console × Except DeviceError Status) :
    (m.conclude done).console = done.2.1 := by
  obtain ⟨s, console, _ | _⟩ := done <;> rfl

@[simp] theorem console_settle (came : Delivery × Console × State) : (settle came).2.1 = came.2.1 := by
  obtain ⟨_ | _ | _, console, s⟩ := came <;> rfl

theorem step_eq_of_running {m : Machine} (runs : m.status = .running) :
    m.step = (m.conclude (execute m.state m.console), (execute m.state m.console).2.2) := by
  obtain ⟨s, console, status, steps, maxSteps⟩ := m
  cases runs
  simp only [step]
  rcases execute s console with ⟨t, after, error | status⟩ <;> rfl

theorem step_of_running {m : Machine} (runs : m.status = .running) :
    m.step.1 = m.conclude (execute m.state m.console) := by
  rw [step_eq_of_running runs]

theorem execute_of_atInput {s : State} (waits : s.atInput = true) (console : Console) :
    execute s console = settle (console.nextInput s) := by
  obtain ⟨destination, fetched⟩ := State.atInput_iff.mp waits
  simp only [execute, fetched, input]
  rcases console.nextInput s with ⟨_ | _ | _, after, t⟩ <;> rfl

/-- What an instruction that writes comes to. A failed write leaves the state as it was. -/
def afterWrite (s t : State) (status : Status) : Console × Option DeviceError → State × Console × Except DeviceError Status
  | (console, some error) => (s, console, .error error)
  | (console, none) => (t, console, .ok status)

@[simp] theorem console_afterWrite (s t : State) (status : Status) (written : Console × Option DeviceError) :
    (afterWrite s t status written).2.1 = written.1 := by
  obtain ⟨console, _ | _⟩ := written <;> rfl

theorem afterWrite_of_roomy {console : Console} (roomy : console.sink.room = none) (s t : State) (status : Status)
    (bytes : List UInt8) : afterWrite s t status (console.write bytes) = (t, (console.write bytes).1, .ok status) := by
  rw [Console.write_of_roomy roomy]
  rfl

/-- An instruction other than `in` writes some bytes, perhaps none, and leaves a state
    and a status, all of which do not depend on the console. -/
theorem exists_execute {s : State} (busy : s.atInput = false) :
    ∃ bytes t status, ∀ console : Console, execute s console = afterWrite s t status (console.write bytes) := by
  unfold State.atInput at busy
  unfold execute
  cases fetched : s.fetch with
  | error fault =>
    refine ⟨[], s, .faulted fault, ?_⟩
    intro console
    rw [Console.write_nil]
    rfl
  | ok i =>
    rw [fetched] at busy
    cases shape : i with
    | input destination =>
      rw [shape] at busy
      cases busy
    | out source =>
      simp only [output]
      cases resolved : s.registers.resolve? source with
      | none =>
        refine ⟨[], s, .faulted (.invalidOperand s.pc source), ?_⟩
        intro console
        rw [Console.write_nil]
        rfl
      | some word =>
        refine ⟨Utf8.encode [Console.charOfWord word], { s with pc := s.after 2 }, .running, ?_⟩
        intro console
        simp only [Console.emit]
        rcases console.write (Utf8.encode [Console.charOfWord word]) with ⟨after, _ | error⟩ <;> rfl
    | _ =>
      refine ⟨[], (s.perform i).1, (s.perform i).2, ?_⟩
      intro console
      rw [Console.write_nil, shape]
      rfl

theorem status_step_of_busy {m : Machine} (runs : m.status = .running) (busy : m.state.atInput = false) :
    m.step.1.status ≠ .inputClosed := by
  rw [step_of_running runs, execute]
  unfold State.atInput at busy
  cases fetched : m.state.fetch with
  | error fault => nofun
  | ok i =>
    have performed := m.state.perform_ne_inputClosed i
    rw [fetched] at busy
    cases i with
    | input destination => cases busy
    | out source =>
      simp only [output]
      split
      · nofun
      · split
        · simp [conclude, runs]
        · nofun
    | _ => exact performed

/-- An `in` that gets a word does not close the input. -/
theorem status_step_of_word {m : Machine} (runs : m.status = .running) (waits : m.state.atInput = true)
    {word : Word} {console : Console} {s : State}
    (asked : m.console.nextInput m.state = (.word word, console, s)) : m.step.1.status ≠ .inputClosed := by
  rw [step_of_running runs, execute_of_atInput waits, asked]
  exact s.receive_ne_inputClosed word

/-! ### Results of steps -/

/-- A step that ends without a failure is its instruction, carried out, and counts. -/
theorem execute_of_result {m : Machine} (runs : m.status = .running) {status : Status} (ended : m.step.2 = .ok status) :
    execute m.state m.console = (m.step.1.state, m.step.1.console, .ok status) ∧ m.step.1.status = status ∧
      m.step.1.steps = m.steps + 1 := by
  rw [step_eq_of_running runs] at ended ⊢
  rcases done : execute m.state m.console with ⟨t, console, result⟩
  rw [done] at ended
  cases ended
  exact ⟨rfl, rfl, rfl⟩

/-- A step that a device fails is its instruction up to the failure, and does not count. -/
theorem execute_of_failure {m : Machine} (runs : m.status = .running) {error : DeviceError}
    (failed : m.step.2 = .error error) :
    execute m.state m.console = (m.step.1.state, m.step.1.console, .error error) ∧ m.step.1.status = .running ∧
      m.step.1.steps = m.steps := by
  rw [step_eq_of_running runs] at failed ⊢
  rcases done : execute m.state m.console with ⟨t, console, result⟩
  rw [done] at failed
  cases failed
  exact ⟨rfl, runs, rfl⟩

theorem result_of_unfetched {m : Machine} (runs : m.status = .running) {fault : Fault}
    (failed : m.state.fetch = .error fault) : m.step.2 = .ok (.faulted fault) := by
  rw [step_eq_of_running runs, execute, failed]

/-! ### Runs -/

/-- The machine after `n` steps. -/
def after (m : Machine) : Nat → Machine
  | 0 => m
  | n + 1 => (m.after n).step.1

theorem after_one (m : Machine) : m.after 1 = m.step.1 := rfl

theorem after_add (m : Machine) (n k : Nat) : m.after (n + k) = (m.after n).after k := by
  induction k with
  | zero => rfl
  | succ k ih => rw [← Nat.add_assoc, after, ih, after]

theorem after_step (m : Machine) (n : Nat) : m.step.1.after n = m.after (n + 1) := by
  rw [Nat.add_comm, after_add]
  rfl

/-- What steps hand on holds after a run. -/
theorem runFor_invariant {P : Machine → Prop} (preserved : ∀ m : Machine, P m → P m.step.1) {m : Machine}
    (holds : P m) (budget : Nat) : P (m.runFor budget).1 := by
  induction budget generalizing m with
  | zero => exact holds
  | succ budget ih =>
    rw [runFor]
    split
    · exact holds
    · have stepped := preserved m holds
      split
      · next after status taken =>
        rw [taken] at stepped
        exact ih stepped
      · next after error taken =>
        rw [taken] at stepped
        exact stepped

/-- The machines that a machine comes to by steps and by runs, in any order. -/
inductive Reached (m : Machine) : Machine → Prop
  | start : Reached m m
  | step {n : Machine} : Reached m n → Reached m n.step.1
  | run {n : Machine} (budget : Option Nat) : Reached m n → Reached m (n.run budget).1

/-- What steps hand on holds of every machine that is reached. -/
theorem Reached.invariant {P : Machine → Prop} (preserved : ∀ m : Machine, P m → P m.step.1) {m n : Machine}
    (reached : m.Reached n) (holds : P m) : P n := by
  induction reached with
  | start => exact holds
  | step _ ih => exact preserved _ ih
  | run budget _ ih => exact runFor_invariant preserved ih _

end Machine

end WordMachine
