import WordMachine.Proofs.Console.Loads
import WordMachine.Proofs.Machine.Outcome

/-!
Loads within a run. `Machine.loads` lists the states that the next step loads. A machine that
is reached by steps and runs is the one after some number of steps (`Reached.exists_after`).
-/
namespace WordMachine.Machine

/-- The states that the next step loads, the last of them last. -/
def loads (m : Machine) : List State :=
  if m.status = .running ∧ m.state.atInput = true then m.console.loads m.state else []

theorem loads_of_waiting {m : Machine} (runs : m.status = .running) (waits : m.state.atInput = true) :
    m.loads = m.console.loads m.state :=
  if_pos ⟨runs, waits⟩

/-- Only `in` loads. -/
theorem loads_of_word? {m : Machine} {word : Word} (code : m.state.word? 0 = some word) (other : word ≠ 20) :
    m.loads = [] := by
  refine if_neg ?_
  rintro ⟨-, waits⟩
  have asks := (State.atInput_iff_read?.mp waits).2
  exact other (Option.some.inj (code.symm.trans asks))

theorem loads_of_busy {m : Machine} (busy : m.state.atInput = false) : m.loads = [] := by
  rw [loads, if_neg (by simp [busy])]

/-- The state that the next step loads last, or the state as it is if it loads none. -/
def loaded (m : Machine) : State := m.loads.getLast?.getD m.state

theorem loaded_of_free {m : Machine} (free : m.loads = []) : m.loaded = m.state := by
  rw [loaded, free]
  rfl

theorem touched_of_waiting {m : Machine} (runs : m.status = .running) (waits : m.state.atInput = true) :
    m.loaded.Touched (m.console.nextInput m.state).2.2 := by
  rw [loaded, loads_of_waiting runs waits]
  exact m.console.nextInput_touched m.state

/-- The machines that are reached are those that come after some number of steps. -/
theorem Reached.exists_after {m n : Machine} (reached : m.Reached n) : ∃ k, n = m.after k := by
  refine reached.invariant (P := fun n => ∃ k, n = m.after k) ?_ ⟨0, rfl⟩
  rintro n ⟨k, rfl⟩
  exact ⟨k + 1, rfl⟩

theorem reached_after (m : Machine) (k : Nat) : m.Reached (m.after k) := by
  induction k with
  | zero => exact .start
  | succ k ih => exact .step ih

end WordMachine.Machine
