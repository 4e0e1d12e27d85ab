import WordMachine.Proofs.Machine.Step

/-!
Moments of a run. A step may ask for many lines, and a moment is a machine between two
turns at the prompt, or between two steps. `Moment.next` goes from a moment to the one
after it, and `Moment.finish` is the machine once the step of a moment is over. The
moments of a run refine its steps: a moment between steps begins the next step, and the
moments within a step all finish as it does (`finish_next`). What every moment hands on
to the next one therefore holds after every step (`step_invariant`).
-/
namespace WordMachine

/-- A machine that is between two steps, or is asking for input within a step. -/
structure Moment where
  machine : Machine
  asking : Bool

namespace Moment

/-- The next moment. A machine that comes to an `in` asks; one that asks takes a word if
    one is pending, and has a turn at the prompt otherwise; any other machine steps. -/
def next : Moment → Moment
  | ⟨m, false⟩ => if m.status.isFinal = false ∧ m.state.atInput = true then ⟨m, true⟩ else ⟨m.step.1, false⟩
  | ⟨m, true⟩ =>
    match m.console.pending with
    | word :: rest =>
      ⟨m.conclude (Machine.settle (.word word, { m.console with pending := rest }, m.state)), false⟩
    | [] =>
      match m.console.turn m.state with
      | (some delivery, console, s) => ⟨m.conclude (Machine.settle (delivery, console, s)), false⟩
      | (none, console, s) => ⟨{ m with state := s, console := console }, true⟩

/-- The moment after `n` more. -/
def after (x : Moment) : Nat → Moment
  | 0 => x
  | n + 1 => (x.after n).next

/-- The machine once the step of the moment is over. -/
def finish (x : Moment) : Machine :=
  if x.asking then x.machine.conclude (Machine.settle (x.machine.console.nextInput x.machine.state))
  else x.machine

@[simp] theorem after_zero (x : Moment) : x.after 0 = x := rfl

theorem after_succ (x : Moment) (n : Nat) : x.after (n + 1) = (x.after n).next := rfl

theorem after_add (x : Moment) (n k : Nat) : x.after (n + k) = (x.after n).after k := by
  induction k with
  | zero => rfl
  | succ k ih => rw [← Nat.add_assoc, after_succ, ih, after_succ]

/-! ### Cases -/

theorem next_of_waiting {m : Machine} (runs : m.status = .running) (waits : m.state.atInput = true) :
    next ⟨m, false⟩ = ⟨m, true⟩ :=
  if_pos ⟨by rw [runs]; rfl, waits⟩

theorem next_of_busy {m : Machine} (busy : m.state.atInput = false) : next ⟨m, false⟩ = ⟨m.step.1, false⟩ :=
  if_neg fun ⟨_, waits⟩ => by rw [busy] at waits; cases waits

theorem next_of_final {m : Machine} (final : m.status.isFinal = true) : next ⟨m, false⟩ = ⟨m, false⟩ := by
  have stopped : ¬ (m.status.isFinal = false ∧ m.state.atInput = true) := by
    rintro ⟨runs, -⟩
    rw [final] at runs
    cases runs
  rw [next, if_neg stopped, Machine.step_of_isFinal final]

theorem next_of_pending {m : Machine} {word : Word} {rest : List Word} (waiting : m.console.pending = word :: rest) :
    next ⟨m, true⟩
      = ⟨m.conclude (Machine.settle (.word word, { m.console with pending := rest }, m.state)), false⟩ := by
  simp only [next, waiting]

theorem next_of_turn_some {m : Machine} {delivery : Delivery} {console : Console} {s : State}
    (empty : m.console.pending = []) (turned : m.console.turn m.state = (some delivery, console, s)) :
    next ⟨m, true⟩ = ⟨m.conclude (Machine.settle (delivery, console, s)), false⟩ := by
  simp only [next, empty, turned]

theorem next_of_turn_none {m : Machine} {console : Console} {s : State}
    (empty : m.console.pending = []) (turned : m.console.turn m.state = (none, console, s)) :
    next ⟨m, true⟩ = ⟨{ m with state := s, console := console }, true⟩ := by
  simp only [next, empty, turned]

/-- What holds of each of the moments that may come next holds of the next one. -/
theorem next_cases {P : Moment → Prop} (x : Moment)
    (final : x.asking = false → x.machine.status.isFinal = true → P x)
    (begins : x.asking = false → x.machine.status = .running → x.machine.state.atInput = true →
      P ⟨x.machine, true⟩)
    (steps : x.asking = false → x.machine.status = .running → x.machine.state.atInput = false →
      P ⟨x.machine.step.1, false⟩)
    (word : ∀ word rest, x.asking = true → x.machine.console.pending = word :: rest →
      P ⟨x.machine.conclude
        (Machine.settle (.word word, { x.machine.console with pending := rest }, x.machine.state)), false⟩)
    (ends : ∀ delivery console s, x.asking = true → x.machine.console.pending = [] →
      x.machine.console.turn x.machine.state = (some delivery, console, s) →
      P ⟨x.machine.conclude (Machine.settle (delivery, console, s)), false⟩)
    (again : ∀ console s, x.asking = true → x.machine.console.pending = [] →
      x.machine.console.turn x.machine.state = (none, console, s) →
      P ⟨{ x.machine with state := s, console := console }, true⟩) : P x.next := by
  obtain ⟨m, asking⟩ := x
  cases asking with
  | false =>
    cases stopped : m.status.isFinal with
    | true =>
      rw [next_of_final stopped]
      exact final rfl stopped
    | false =>
      have runs := Status.eq_running stopped
      cases waits : m.state.atInput with
      | true =>
        rw [next_of_waiting runs waits]
        exact begins rfl runs waits
      | false =>
        rw [next_of_busy waits]
        exact steps rfl runs waits
  | true =>
    cases waiting : m.console.pending with
    | cons w rest =>
      rw [next_of_pending waiting]
      exact word w rest rfl waiting
    | nil =>
      rcases turned : m.console.turn m.state with ⟨_ | delivery, console, s⟩
      · rw [next_of_turn_none waiting turned]
        exact again console s rfl waiting turned
      · rw [next_of_turn_some waiting turned]
        exact ends delivery console s rfl waiting turned

/-! ### Moments and steps -/

/-- A moment within a step hands its end on, and one between steps begins a step. -/
theorem finish_next (x : Moment) : x.next.finish = if x.asking then x.finish else x.machine.step.1 := by
  refine next_cases (P := fun y => y.finish = if x.asking then x.finish else x.machine.step.1) x ?_ ?_ ?_ ?_ ?_ ?_
  · intro idle final
    simp [finish, idle, Machine.step_of_isFinal final]
  · intro idle runs waits
    rw [Machine.step_of_running runs, Machine.execute_of_atInput waits]
    simp [finish, idle]
  · intro idle _ _
    simp [finish, idle]
  · intro word rest asks waiting
    simp [finish, asks, Console.nextInput_of_pending waiting]
  · intro delivery console s asks empty turned
    simp [finish, asks, Console.nextInput_of_turn_some empty turned]
  · intro console s asks empty turned
    simp only [finish, asks, if_true, Console.nextInput_of_turn_none empty turned]
    rfl

/-- A moment that asks again has read a line. -/
theorem length_source_next_lt {x : Moment} (asks : x.asking = true) (again : x.next.asking = true) :
    x.next.machine.console.source.signals.length < x.machine.console.source.signals.length := by
  revert again
  refine next_cases (P := fun y => y.asking = true →
    y.machine.console.source.signals.length < x.machine.console.source.signals.length) x ?_ ?_ ?_ ?_ ?_ ?_
  · intro idle
    rw [asks] at idle
    cases idle
  · intro idle
    rw [asks] at idle
    cases idle
  · intro idle
    rw [asks] at idle
    cases idle
  · intro _ _ _ _ again
    cases again
  · intro _ _ _ _ _ _ again
    cases again
  · intro console s _ _ turned _
    exact Console.length_source_turn_lt turned

/-- What moments hand on holds at the end of the step. -/
theorem finish_invariant {P : Moment → Prop} (preserved : ∀ x : Moment, P x → P x.next) (x : Moment) (holds : P x) :
    P ⟨x.finish, false⟩ := by
  cases asks : x.asking with
  | false =>
    have same : (⟨x.finish, false⟩ : Moment) = x := by
      obtain ⟨m, asking⟩ := x
      cases asks
      rfl
    rw [same]
    exact holds
  | true =>
    have ending := finish_next x
    rw [if_pos asks] at ending
    rw [← ending]
    cases again : x.next.asking with
    | false =>
      have same : (⟨x.next.finish, false⟩ : Moment) = x.next := by
        cases landed : x.next with
        | mk m asking =>
          rw [landed] at again
          cases again
          rfl
      rw [same]
      exact preserved x holds
    | true =>
      have shorter := length_source_next_lt asks again
      exact finish_invariant preserved x.next (preserved x holds)
termination_by x.machine.console.source.signals.length

/-- What moments hand on holds after a step. -/
theorem step_invariant {P : Moment → Prop} (preserved : ∀ x : Moment, P x → P x.next) {m : Machine}
    (holds : P ⟨m, false⟩) : P ⟨m.step.1, false⟩ := by
  have ending := finish_next ⟨m, false⟩
  simp only [Bool.false_eq_true, if_false] at ending
  rw [← ending]
  exact finish_invariant preserved _ (preserved _ holds)

/-- What has been read stays read. -/
theorem length_source_next_le (x : Moment) :
    x.next.machine.console.source.signals.length ≤ x.machine.console.source.signals.length := by
  refine next_cases (P := fun y =>
    y.machine.console.source.signals.length ≤ x.machine.console.source.signals.length) x ?_ ?_ ?_ ?_ ?_ ?_
  · intro _ _
    exact Nat.le_refl _
  · intro _ _ _
    exact Nat.le_refl _
  · intro _ runs busy
    obtain ⟨bytes, t, status, executes⟩ := Machine.exists_execute busy
    rw [Machine.step_of_running runs, executes]
    simp
  · intro word rest _ _
    simp
  · intro delivery console s _ _ turned
    simpa using Console.length_source_turn_le turned
  · intro console s _ _ turned
    exact Console.length_source_turn_le turned

theorem length_source_finish_le (x : Moment) :
    x.finish.console.source.signals.length ≤ x.machine.console.source.signals.length := by
  refine finish_invariant
    (P := fun y => y.machine.console.source.signals.length ≤ x.machine.console.source.signals.length) ?_ x ?_
  · intro y less
    exact Nat.le_trans (length_source_next_le y) less
  · exact Nat.le_refl _

end Moment

namespace Machine

/-- The moments of a run of the machine, from the one before its first step on. -/
def moment (m : Machine) (n : Nat) : Moment := Moment.after ⟨m, false⟩ n

theorem moment_add (m : Machine) (n k : Nat) : m.moment (n + k) = (m.moment n).after k :=
  Moment.after_add ⟨m, false⟩ n k

/-- A moment is the machine after some number of steps, or it lies within the step after
    them. -/
theorem moment_cases (m : Machine) (n : Nat) : ∃ k,
    (m.moment n).asking = false ∧ (m.moment n).machine = m.after k ∨
    (m.moment n).asking = true ∧ (m.moment n).finish = m.after (k + 1) ∧
      (m.moment n).machine.console.source.signals.length ≤ (m.after k).console.source.signals.length := by
  induction n with
  | zero => exact ⟨0, .inl ⟨rfl, rfl⟩⟩
  | succ n ih =>
    rw [moment_add m n 1, Moment.after_succ, Moment.after_zero]
    generalize m.moment n = x at ih ⊢
    have ending := x.finish_next
    have more := x.length_source_next_le
    have landed : x.next.asking = false → x.next.machine = x.next.finish := by
      intro idle
      rw [Moment.finish, idle]
      rfl
    obtain ⟨k, ⟨idle, here⟩ | ⟨asks, finishes, read⟩⟩ := ih
    · have finishes : x.next.finish = m.after (k + 1) := by
        rw [ending, idle, here]
        rfl
      cases again : x.next.asking with
      | false => exact ⟨k + 1, .inl ⟨rfl, (landed again).trans finishes⟩⟩
      | true => exact ⟨k, .inr ⟨rfl, finishes, by rw [← here]; exact more⟩⟩
    · have finishes : x.next.finish = m.after (k + 1) := by
        rw [ending, if_pos asks, finishes]
      cases again : x.next.asking with
      | false => exact ⟨k + 1, .inl ⟨rfl, (landed again).trans finishes⟩⟩
      | true => exact ⟨k, .inr ⟨rfl, finishes, Nat.le_trans more read⟩⟩

end Machine

end WordMachine
