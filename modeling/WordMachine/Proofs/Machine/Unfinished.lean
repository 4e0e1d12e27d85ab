import WordMachine.Proofs.Console.Request
import WordMachine.Proofs.Machine.Loads

/-!
Steps that do not finish. An instruction that faults counts and leaves everything as it was,
except that `pop` has taken the top off the stack and `in` has taken its word
(`Machine.fault_leaves`). A device that fails ends the step at once, so a sink that has room
for so many bytes stands for any writer that fails: the step does not count, `out` has written
a part of its character and `in` has obeyed the lines that it read (`Machine.failure_leaves`).
-/
namespace WordMachine

namespace State

variable {s t : State} {i : Instruction} {fault : Fault}

/-- A fault leaves the state as it was, except that `pop` has taken the top off by then. -/
theorem Outcome.state_of_fault (outcome : s.Outcome i (t, .faulted fault)) :
    t = s ∧ (∀ destination, i = .pop destination → s.stack = []) ∨
      ∃ destination top rest, i = .pop destination ∧ s.stack = top :: rest ∧
        (destination.toNat < 32768 ∨ 32776 ≤ destination.toNat) ∧ t = { s with stack := rest } := by
  cases outcome with
  | drops held other => exact .inr ⟨_, _, _, rfl, held, other, rfl⟩
  | faults refusal =>
    refine .inl ⟨rfl, ?_⟩
    rintro destination rfl
    cases refusal with
    | operand used => cases used
    | register names => cases names
    | emptyStack empty => exact empty

theorem Reception.state_of_fault {word : Word} (reception : s.Reception word (t, .faulted fault)) : t = s := by
  cases reception <;> rfl

end State

namespace Machine

variable {m : Machine} {fault : Fault} {error : DeviceError}

theorem console_of_fault (runs : m.status = .running) (faulted : m.step.2 = .ok (.faulted fault))
    (busy : m.state.atInput = false) : m.step.1.console = m.console := by
  obtain ⟨done, -⟩ := execute_of_result runs faulted
  rcases console_of_execute busy done with ⟨same, -⟩ | ⟨_, _, -, -, ⟨-, -, goesOn⟩ | ⟨_, -, -, failed⟩⟩
  · exact same
  · cases goesOn
  · cases failed

theorem state_of_fault (runs : m.status = .running) (faulted : m.step.2 = .ok (.faulted fault))
    (busy : m.state.atInput = false) :
    m.step.1.state = m.state ∧ (∀ destination, m.state.fetch = .ok (.pop destination) → m.state.stack = []) ∨
      ∃ destination top rest, m.state.fetch = .ok (.pop destination) ∧ m.state.stack = top :: rest ∧
        (destination.toNat < 32768 ∨ 32776 ≤ destination.toNat) ∧ m.step.1.state = { m.state with stack := rest } := by
  cases fetched : m.state.fetch with
  | error first =>
    rw [step_of_unfetched runs fetched]
    exact .inl ⟨rfl, nofun⟩
  | ok i =>
    rcases (outcome_of_result runs fetched busy faulted).state_of_fault with
      ⟨same, empty⟩ | ⟨destination, top, rest, rfl, dropped⟩
    · exact .inl ⟨same, fun destination is => empty destination (Except.ok.inj is)⟩
    · exact .inr ⟨destination, top, rest, rfl, dropped⟩

/-- An instruction that faults has no effect in part. It counts, and it leaves the console and
    the state as they were, except that `pop` has taken the top off the stack if its
    destination is no register. An `in` that faults has been given one word, and leaves the
    state that the commands before it have left; but if its operand lies past the last cell,
    it asks for nothing. -/
theorem fault_leaves (runs : m.status = .running) (faulted : m.step.2 = .ok (.faulted fault)) :
    m.step.1.status = .faulted fault ∧ m.step.1.steps = m.steps + 1 ∧
    (m.state.atInput = false → m.step.1.console = m.console ∧
      (∀ destination top rest, m.state.fetch = .ok (.pop destination) → m.state.stack = top :: rest →
        (destination.toNat < 32768 ∨ 32776 ≤ destination.toNat) ∧ m.step.1.state = { m.state with stack := rest }) ∧
      ((∀ destination, m.state.fetch ≠ .ok (.pop destination)) ∨ m.state.stack = [] → m.step.1.state = m.state)) ∧
    (m.state.atInput = true → ∃ lines word,
      m.console.Request m.state lines m.loads (.word word, m.step.1.console, m.step.1.state) ∧
        m.loaded.Touched m.step.1.state) ∧
    (m.state.word? 0 = some 20 → m.state.word? 1 = none →
      m.step.1.console = m.console ∧ m.step.1.state = m.state) := by
  obtain ⟨done, status, counted⟩ := execute_of_result runs faulted
  refine ⟨status, counted, ?_, ?_, ?_⟩
  · intro busy
    refine ⟨console_of_fault runs faulted busy, ?_, ?_⟩
    · intro destination top rest fetched held
      rcases state_of_fault runs faulted busy with ⟨-, empty⟩ | ⟨other, first, below, also, split, outside, left⟩
      · rw [empty destination fetched] at held
        cases held
      · rw [fetched] at also
        cases also
        rw [held] at split
        cases split
        exact ⟨outside, left⟩
    · intro kept
      rcases state_of_fault runs faulted busy with ⟨same, -⟩ | ⟨destination, top, rest, fetched, held, -⟩
      · exact same
      · rcases kept with other | empty
        · exact absurd fetched (other destination)
        · rw [empty] at held
          cases held
  · intro waits
    obtain ⟨lines, request⟩ := m.console.request_nextInput m.state
    have touched := touched_of_waiting runs waits
    rcases reception_of_execute waits done with ⟨closed, -⟩ | ⟨word, u, asked, reception⟩
    · cases closed
    · rw [asked, ← reception.state_of_fault] at request touched
      rw [loads_of_waiting runs waits]
      exact ⟨lines, word, request, touched⟩
  · intro code cut
    have busy : m.state.atInput = false := by
      rw [Bool.eq_false_iff, Ne, State.atInput_iff]
      rintro ⟨destination, fetched⟩
      rw [State.word?_operand fetched (k := 0) rfl] at cut
      cases cut
    rcases state_of_fault runs faulted busy with ⟨same, -⟩ | ⟨destination, _, _, fetched, -⟩
    · exact ⟨console_of_fault runs faulted busy, same⟩
    · cases State.operation_of_fetch fetched (show m.state.word? 0 = some Operation.input.code from code)

/-- A `pop` that names no register: the top is gone, and nothing else has changed. -/
theorem fault_leaves_pop :
    let s : State := ⟨0, .zero, [7, 8], .padded [3, 5]⟩
    let m : Machine := new s ⟨.ofBytes [], .new none, [], "save.json", ">>> ", .empty⟩ none
    m.status = .running ∧ m.step.2 = .ok (.faulted (.invalidRegister 0 5)) ∧
      m.step.1.state = { s with stack := [8] } ∧ m.step.1.console = m.console ∧ m.step.1.steps = 1 := by
  intro s m
  have fetched : m.state.fetch = .ok (.pop 5) := State.fetch_padded [] rfl rfl (by decide)
  have busy : m.state.atInput = false := by
    rw [State.atInput, fetched]
  have faulted : m.step.2 = .ok (.faulted (.invalidRegister 0 5)) := by
    rw [result_of_fetch rfl fetched (by simp) (by simp)]
    rfl
  obtain ⟨-, counted, leaves, -⟩ := fault_leaves rfl faulted
  obtain ⟨console, drops, -⟩ := leaves busy
  exact ⟨rfl, faulted, (drops 5 7 [8] fetched rfl).2, console, counted⟩

end Machine

end WordMachine
