import WordMachine.Proofs.Console.Comparison
import WordMachine.Proofs.Machine.Step

/-!
Two runs side by side. Machines in the same state and with the same status, whose consoles
are abreast, are together; one step of each leaves them together (`Together.step`), and
so does any number of steps (`Together.after`).
-/
namespace WordMachine.Comparison

/-- The machines are in the same state and have the same status, they have taken equally
    many steps since the beginning, and their consoles are abreast. -/
structure Together (c : Comparison) (m n : Machine) : Prop where
  state : m.state = n.state
  status : m.status = n.status
  steps : ∃ k, m.steps = c.early + k ∧ n.steps = c.late + k
  abreast : ∃ lines more, Interposed c.extra lines more ∧ c.Abreast lines more m.console n.console

variable {c : Comparison} {m n : Machine}

theorem Together.pending (together : c.Together m n) : m.console.pending = n.console.pending := by
  obtain ⟨lines, more, -, abreast⟩ := together.abreast
  exact abreast.pending

/-- An instruction that ends, with or without a failure, ends alike on both sides. -/
theorem Together.conclude {s t : State} {first second : Console} (status : m.status = n.status)
    (steps : ∃ k, m.steps = c.early + k ∧ n.steps = c.late + k) (same : s = t)
    (abreast : ∃ lines more, Interposed c.extra lines more ∧ c.Abreast lines more first second)
    (result : Except DeviceError Status) :
    c.Together (m.conclude (s, first, result)) (n.conclude (t, second, result)) := by
  cases result with
  | error error => exact ⟨same, status, steps, abreast⟩
  | ok ending =>
    obtain ⟨k, early, late⟩ := steps
    refine ⟨same, rfl, ⟨k + 1, ?_, ?_⟩, abreast⟩
    · rw [Machine.conclude, early, Nat.add_assoc]
    · rw [Machine.conclude, late, Nat.add_assoc]

/-- Requests that came to the same are made the same of. -/
theorem Agree.together {one other : Delivery × Console × State} (agree : c.Agree one other) (status : m.status = n.status)
    (steps : ∃ k, m.steps = c.early + k ∧ n.steps = c.late + k) :
    c.Together (m.conclude (Machine.settle one)) (n.conclude (Machine.settle other)) := by
  obtain ⟨delivery, first, s⟩ := one
  obtain ⟨alsoDelivery, second, t⟩ := other
  obtain ⟨came, same, abreast⟩ := agree
  simp only at came same abreast
  subst came same
  cases delivery with
  | failed error => exact .conclude status steps rfl abreast (.error error)
  | closed => exact .conclude status steps rfl abreast (.ok .inputClosed)
  | word word => exact .conclude status steps rfl abreast (.ok (s.receive word).2)

/-- An instruction other than `in` writes the same bytes on both sides. -/
theorem Together.exists_write (together : c.Together m n) (runs : m.status = .running) (busy : m.state.atInput = false) :
    ∃ bytes t status, m.step.1 = m.conclude (t, (m.console.write bytes).1, .ok status) ∧
      n.step.1 = n.conclude (t, (n.console.write bytes).1, .ok status) := by
  obtain ⟨lines, more, -, abreast⟩ := together.abreast
  obtain ⟨bytes, t, status, executes⟩ := Machine.exists_execute busy
  refine ⟨bytes, t, status, ?_, ?_⟩
  · rw [Machine.step_of_running runs, executes, Machine.afterWrite_of_roomy abreast.reads.roomy]
  · rw [Machine.step_of_running (together.status ▸ runs), ← together.state, executes,
      Machine.afterWrite_of_roomy abreast.alsoReads.roomy]

theorem Together.step (together : c.Together m n) : c.Together m.step.1 n.step.1 := by
  cases final : m.status.isFinal with
  | true =>
    rw [Machine.step_of_isFinal final, Machine.step_of_isFinal (together.status ▸ final)]
    exact together
  | false =>
    have runs := Status.eq_running final
    obtain ⟨lines, more, between, abreast⟩ := together.abreast
    cases waits : m.state.atInput with
    | true =>
      rw [Machine.step_of_running runs, Machine.step_of_running (together.status ▸ runs),
        ← together.state, Machine.execute_of_atInput waits, Machine.execute_of_atInput waits]
      exact (nextInput between abreast m.state).together together.status together.steps
    | false =>
      obtain ⟨bytes, t, status, here, there⟩ := together.exists_write runs waits
      rw [here, there]
      exact .conclude together.status together.steps rfl ⟨lines, more, between, abreast.write bytes⟩ (.ok status)

theorem Together.after (together : c.Together m n) (k : Nat) : c.Together (m.after k) (n.after k) := by
  induction k with
  | zero => exact together
  | succ k ih => exact ih.step

end WordMachine.Comparison
