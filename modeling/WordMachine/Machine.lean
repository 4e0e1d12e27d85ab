import WordMachine.Console
import WordMachine.Execution

/-!
The machine: a state, a console and a status. `Machine.step` carries out one
instruction. An instruction that faults ends the run and counts; one whose
device fails does not count and leaves the machine running, with all that was
done before the failure. `Machine.run` steps until the machine stops, a budget
is used up or the ceiling on all steps is reached.
-/
namespace WordMachine

structure Machine where
  state : State
  console : Console
  status : Status
  /-- The instructions carried out so far. -/
  steps : Nat
  /-- The ceiling on `steps` for runs, if there is one. -/
  maxSteps : Option Nat

namespace Machine

/-- A machine that has not taken a step. -/
def new (state : State) (console : Console) (maxSteps : Option Nat) : Machine :=
  ⟨state, console, .running, 0, maxSteps⟩

/-- `out`, given its operand. -/
def output (state : State) (console : Console) (source : Word) :
    State × Console × Except DeviceError Status :=
  match state.registers.resolve? source with
  | none => (state, console, .ok (.faulted (.invalidOperand state.pc source)))
  | some word =>
    match console.emit word with
    | (console, some error) => (state, console, .error error)
    | (console, none) => ({ state with pc := state.after 2 }, console, .ok .running)

/-- `in`, which looks for its destination once the console has given a word. -/
def input (state : State) (console : Console) : State × Console × Except DeviceError Status :=
  match console.nextInput state with
  | (.failed error, console, state) => (state, console, .error error)
  | (.closed, console, state) => (state, console, .ok .inputClosed)
  | (.word word, console, state) =>
    match state.receive word with
    | (state, status) => (state, console, .ok status)

def execute (state : State) (console : Console) : State × Console × Except DeviceError Status :=
  match state.fetch with
  | .error fault => (state, console, .ok (.faulted fault))
  | .ok (.out source) => output state console source
  | .ok (.input _) => input state console
  | .ok instruction =>
    match state.perform instruction with
    | (state, status) => (state, console, .ok status)

/-- One instruction. A machine that has stopped stays as it is. -/
def step (m : Machine) : Machine × Except DeviceError Status :=
  match m with
  | ⟨state, console, .running, steps, maxSteps⟩ =>
    match execute state console with
    | (state, console, .ok status) => (⟨state, console, status, steps + 1, maxSteps⟩, .ok status)
    | (state, console, .error error) => (⟨state, console, .running, steps, maxSteps⟩, .error error)
  | ⟨state, console, status, steps, maxSteps⟩ =>
    (⟨state, console, status, steps, maxSteps⟩, .ok status)

/-- A machine that has stopped takes no step. -/
theorem step_of_isFinal {m : Machine} (final : m.status.isFinal) : m.step = (m, .ok m.status) := by
  obtain ⟨state, console, status, steps, maxSteps⟩ := m
  cases status with
  | running => simp [Status.isFinal] at final
  | halted | faulted | inputClosed => rfl

/-- No step may follow in a run. -/
def stopped (m : Machine) : Bool :=
  m.status.isFinal || m.maxSteps.any (· ≤ m.steps)

/-- At most `budget` steps, up to the first failure of a device. -/
def runFor (m : Machine) : (budget : Nat) → Machine × Except DeviceError Status
  | 0 => (m, .ok m.status)
  | budget + 1 =>
    if m.stopped then (m, .ok m.status)
    else
      match m.step with
      | (after, .ok _) => after.runFor budget
      | (after, .error error) => (after, .error error)

theorem runFor_of_stopped {m : Machine} (still : m.stopped) (budget : Nat) :
    m.runFor budget = (m, .ok m.status) := by
  cases budget <;> simp [runFor, still]

/-- The number of steps that a machine counts at most. -/
def longestRun : Nat := 0xFFFFFFFFFFFFFFFF

/-- Steps within a budget, or without one as long as steps are counted. -/
def run (m : Machine) (budget : Option Nat) : Machine × Except DeviceError Status :=
  m.runFor (budget.getD longestRun)

/-- The addresses that the program counter holds after each of at most `n`
    steps that leave the machine running, which come after those already found,
    last first. Tracing ends with the machine or at a failure. -/
def traceAfter (found : List Word) (m : Machine) : Nat → List Word × Machine × Option DeviceError
  | 0 => (found.reverse, m, none)
  | n + 1 =>
    match m.step with
    | (after, .error error) => (found.reverse, after, some error)
    | (after, .ok .running) => traceAfter (after.state.pc :: found) after n
    | (after, .ok _) => (found.reverse, after, none)

def trace (m : Machine) (n : Nat) : List Word × Machine × Option DeviceError := traceAfter [] m n

end Machine

end WordMachine
