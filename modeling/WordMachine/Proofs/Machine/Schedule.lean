import Mathlib.Data.ENat.Lattice
import WordMachine.Proofs.Machine.Step

/-!
Runs one after the other. A run goes on where the one before it stopped, so only the sum
of the budgets counts (`runFor_add`), and a run that has ended of itself is not changed by
a larger budget (`runFor_of_ended`). A run that no device ends takes as many steps as its
budget, its ceiling and the machine allow, whichever is least (`exists_count_of_run`).
-/
namespace WordMachine

namespace Machine

/-- What comes of a run and of what follows it, if no device ended the run. -/
def goingOn (next : Machine → Machine × Except DeviceError Status) :
    Machine × Except DeviceError Status → Machine × Except DeviceError Status
  | (after, .ok _) => next after
  | (after, .error error) => (after, .error error)

/-- Runs with the given budgets one after the other, up to the first failure of a device. -/
def runEach (m : Machine) : List (Option Nat) → Machine × Except DeviceError Status
  | [] => (m, .ok m.status)
  | budget :: later => goingOn (·.runEach later) (m.run budget)

/-- No step may follow a run, or a device has failed. -/
def Ended (run : Machine × Except DeviceError Status) : Prop := run.1.stopped = true ∨ ∃ error, run.2 = .error error

/-- A run without a budget ends, within as many steps as a machine counts. -/
def Ends (m : Machine) : Prop := ∃ n ≤ longestRun, Ended (m.runFor n)

theorem runFor_of_not_stopped {m : Machine} (goes : m.stopped = false) (budget : Nat) :
    m.runFor (budget + 1) = goingOn (·.runFor budget) m.step := by
  rw [runFor, if_neg (by simp [goes])]
  rcases m.step with ⟨after, error | status⟩ <;> rfl

theorem runFor_add (m : Machine) (first second : Nat) :
    m.runFor (first + second) = goingOn (·.runFor second) (m.runFor first) := by
  induction first generalizing m with
  | zero =>
    rw [Nat.zero_add]
    rfl
  | succ first ih =>
    cases still : m.stopped with
    | true =>
      rw [runFor_of_stopped still, runFor_of_stopped still]
      exact (runFor_of_stopped still second).symm
    | false =>
      rw [Nat.add_right_comm, runFor_of_not_stopped still, runFor_of_not_stopped still]
      rcases m.step with ⟨after, error | status⟩
      · rfl
      · exact ih after

/-- The result of a run is the status that it leaves. -/
theorem eq_status_of_runFor {m after : Machine} {budget : Nat} {status : Status}
    (done : m.runFor budget = (after, .ok status)) : status = after.status := by
  induction budget generalizing m with
  | zero =>
    cases done
    rfl
  | succ budget ih =>
    cases still : m.stopped with
    | true =>
      rw [runFor_of_stopped still] at done
      cases done
      rfl
    | false =>
      rw [runFor_of_not_stopped still] at done
      rcases stepped : m.step with ⟨next, error | status⟩
      · rw [stepped] at done
        cases done
      · rw [stepped] at done
        exact ih done

/-- A run with nothing after it is that run. -/
theorem runEach_singleton (m : Machine) (budget : Option Nat) : m.runEach [budget] = m.run budget := by
  rw [runEach]
  rcases done : m.run budget with ⟨after, error | status⟩
  · rfl
  · rw [eq_status_of_runFor done]
    rfl

theorem runEach_map_some (m : Machine) (budgets : List Nat) :
    m.runEach (budgets.map some) = m.run (some budgets.sum) := by
  induction budgets generalizing m with
  | nil => rfl
  | cons budget later ih =>
    rw [List.map_cons, runEach, List.sum_cons]
    show goingOn (·.runEach (later.map some)) (m.runFor budget) = m.runFor (budget + later.sum)
    rw [runFor_add]
    rcases m.runFor budget with ⟨after, error | status⟩
    · rfl
    · exact ih after

theorem stopped_of_ended {run : Machine × Except DeviceError Status} {after : Machine} {status : Status}
    (ended : Ended run) (done : run = (after, .ok status)) : after.stopped = true := by
  subst done
  rcases ended with still | ⟨error, failed⟩
  · exact still
  · cases failed

/-- A larger budget makes no difference to a run that has ended. -/
theorem runFor_of_ended {m : Machine} {n budget : Nat} (ended : Ended (m.runFor n)) (enough : n ≤ budget) :
    m.runFor budget = m.runFor n := by
  obtain ⟨more, rfl⟩ := Nat.exists_eq_add_of_le enough
  rw [runFor_add]
  rcases done : m.runFor n with ⟨after, error | status⟩
  · rfl
  · rw [eq_status_of_runFor done]
    exact runFor_of_stopped (stopped_of_ended ended done) more

theorem run_none_of_ended {m : Machine} {n : Nat} (counted : n ≤ longestRun) (ended : Ended (m.runFor n)) :
    m.run none = m.runFor n :=
  runFor_of_ended ended counted

/-- A run without a budget that ends may begin with one that has a budget. -/
theorem runEach_some_none {m : Machine} (ends : m.Ends) (budget : Nat) :
    m.runEach [some budget, none] = m.run none := by
  obtain ⟨n, counted, ended⟩ := ends
  have longer : m.runFor (budget + longestRun) = m.runFor n :=
    runFor_of_ended ended (Nat.le_trans counted (Nat.le_add_left _ _))
  calc m.runEach [some budget, none]
      = goingOn (·.runEach [none]) (m.runFor budget) := rfl
    _ = goingOn (·.run none) (m.runFor budget) := by simp only [runEach_singleton]
    _ = m.runFor (budget + longestRun) := (runFor_add m budget longestRun).symm
    _ = m.run none := longer.trans (run_none_of_ended counted ended).symm

/-! ### The number of steps -/

theorem steps_step_of_ok {m : Machine} (runs : m.status = .running) {after : Machine} {status : Status}
    (stepped : m.step = (after, .ok status)) : after.steps = m.steps + 1 := by
  obtain ⟨-, -, counted⟩ := execute_of_result runs (congrArg Prod.snd stepped)
  rwa [stepped] at counted

theorem maxSteps_step (m : Machine) : m.step.1.maxSteps = m.maxSteps := by
  cases final : m.status.isFinal with
  | true => rw [step_of_isFinal final]
  | false =>
    rw [step_of_running (Status.eq_running final)]
    rcases execute m.state m.console with ⟨s, console, error | status⟩ <;> rfl

theorem maxSteps_after (m : Machine) (n : Nat) : (m.after n).maxSteps = m.maxSteps := by
  induction n with
  | zero => rfl
  | succ n ih => exact (maxSteps_step _).trans ih

/-- The machine takes so many steps in a row that all count. -/
structure Counts (m : Machine) (n : Nat) : Prop where
  running : ∀ k < n, (m.after k).status = .running
  succeeds : ∀ k < n, ∃ status, (m.after k).step = (m.after (k + 1), .ok status)
  allowed : ∀ k < n, (m.after k).stopped = false
  steps : ∀ k ≤ n, (m.after k).steps = m.steps + k

theorem Counts.zero (m : Machine) : m.Counts 0 where
  running := fun k below => absurd below (Nat.not_lt_zero k)
  succeeds := fun k below => absurd below (Nat.not_lt_zero k)
  allowed := fun k below => absurd below (Nat.not_lt_zero k)
  steps := by
    intro k least
    cases Nat.le_zero.mp least
    rfl

theorem status_of_not_stopped {m : Machine} (goes : m.stopped = false) : m.status = .running := by
  rw [stopped, Bool.or_eq_false_iff] at goes
  exact Status.eq_running goes.1

/-- One more step, before the others. -/
theorem Counts.cons {m next : Machine} {n : Nat} {status : Status} (goes : m.stopped = false)
    (stepped : m.step = (next, .ok status)) (counts : next.Counts n) : m.Counts (n + 1) := by
  have runs := status_of_not_stopped goes
  have shifted : ∀ k, m.after (k + 1) = next.after k := by
    intro k
    rw [← after_step, stepped]
  refine ⟨?_, ?_, ?_, ?_⟩
  · intro k below
    cases k with
    | zero => exact runs
    | succ k =>
      rw [shifted]
      exact counts.running k (Nat.lt_of_succ_lt_succ below)
  · intro k below
    cases k with
    | zero => exact ⟨status, by rw [shifted]; exact stepped⟩
    | succ k =>
      rw [shifted, shifted]
      exact counts.succeeds k (Nat.lt_of_succ_lt_succ below)
  · intro k below
    cases k with
    | zero => exact goes
    | succ k =>
      rw [shifted]
      exact counts.allowed k (Nat.lt_of_succ_lt_succ below)
  · intro k least
    cases k with
    | zero => rfl
    | succ k =>
      rw [shifted, counts.steps k (Nat.le_of_succ_le_succ least), steps_step_of_ok runs stepped]
      omega

/-- A run that no device ends consists of steps that count, and stops when its budget is
    used up or no step may follow. -/
theorem exists_counts_of_runFor {m after : Machine} {budget : Nat} {status : Status}
    (done : m.runFor budget = (after, .ok status)) :
    ∃ n, m.Counts n ∧ after = m.after n ∧ n ≤ budget ∧ (n = budget ∨ after.stopped = true) := by
  induction budget generalizing m with
  | zero =>
    cases done
    exact ⟨0, .zero _, rfl, Nat.le_refl 0, .inl rfl⟩
  | succ budget ih =>
    cases still : m.stopped with
    | true =>
      rw [runFor_of_stopped still] at done
      cases done
      exact ⟨0, .zero _, rfl, Nat.zero_le _, .inr still⟩
    | false =>
      rw [runFor_of_not_stopped still] at done
      rcases stepped : m.step with ⟨next, error | taken⟩
      · rw [stepped] at done
        cases done
      · rw [stepped] at done
        obtain ⟨n, counts, rfl, within, stops⟩ := ih done
        refine ⟨n + 1, counts.cons still stepped, ?_, Nat.succ_le_succ within, ?_⟩
        · rw [← after_step, stepped]
        · exact stops.imp_left fun used => by rw [used]

/-- A limit on a number of steps, if there is one. -/
def limit : Option Nat → ℕ∞
  | none => ⊤
  | some n => n

/-- The steps that are left under the ceiling. -/
def allowance (m : Machine) : ℕ∞ := limit (m.maxSteps.map (· - m.steps))

/-- The steps that the machine takes until its status is final, if it ever is. -/
noncomputable def lifetime (m : Machine) : ℕ∞ := ⨅ n : { n : Nat // (m.after n).status.isFinal = true }, (n.val : ℕ∞)

theorem Counts.le_allowance {m : Machine} {n : Nat} (counts : m.Counts n) : (n : ℕ∞) ≤ m.allowance := by
  unfold allowance
  cases ceiling : m.maxSteps with
  | none => exact le_top
  | some most =>
    have left : n ≤ most - m.steps := by
      rcases n with _ | n
      · exact Nat.zero_le _
      · have goes := counts.allowed n (Nat.lt_succ_self n)
        rw [stopped, Bool.or_eq_false_iff, maxSteps_after, ceiling, counts.steps n (Nat.le_succ n)] at goes
        have below : ¬ most ≤ m.steps + n := by simpa using goes.2
        omega
    exact Nat.cast_le.mpr left

theorem Counts.le_lifetime {m : Machine} {n : Nat} (counts : m.Counts n) : (n : ℕ∞) ≤ m.lifetime := by
  refine le_iInf ?_
  rintro ⟨k, final⟩
  refine Nat.cast_le.mpr (Nat.le_of_not_lt fun below => ?_)
  rw [counts.running k below] at final
  cases final

/-- Steps after which none may follow are as many as the ceiling or the machine allows. -/
theorem Counts.min_le {m : Machine} {n : Nat} (counts : m.Counts n) (stops : (m.after n).stopped = true) :
    min m.allowance m.lifetime ≤ n := by
  rw [stopped, Bool.or_eq_true] at stops
  rcases stops with final | reached
  · exact min_le_of_right_le (iInf_le_of_le ⟨n, final⟩ le_rfl)
  · refine min_le_of_left_le ?_
    rw [maxSteps_after, counts.steps n (Nat.le_refl n)] at reached
    unfold allowance
    cases ceiling : m.maxSteps with
    | none =>
      rw [ceiling] at reached
      cases reached
    | some most =>
      have used : most ≤ m.steps + n := by simpa [ceiling] using reached
      have left : most - m.steps ≤ n := by omega
      exact Nat.cast_le.mpr left

/-- A run that no device ends takes as many steps as the least of its budget, of what is
    left under the ceiling, and of what the machine takes until its status is final. A run
    without a budget has to end. -/
theorem exists_count_of_run {m after : Machine} {budget : Option Nat} {status : Status}
    (ends : budget = none → m.Ends) (done : m.run budget = (after, .ok status)) :
    ∃ n : Nat, (n : ℕ∞) = min (limit budget) (min m.allowance m.lifetime) ∧ m.Counts n ∧
      after = m.after n ∧ status = after.status := by
  have result := eq_status_of_runFor done
  obtain ⟨n, counts, rfl, within, stops⟩ := exists_counts_of_runFor done
  have most : (n : ℕ∞) ≤ min m.allowance m.lifetime := le_min counts.le_allowance counts.le_lifetime
  refine ⟨n, ?_, counts, rfl, result⟩
  cases budget with
  | some budget =>
    refine le_antisymm (le_min (Nat.cast_le.mpr within) most) ?_
    rcases stops with rfl | still
    · exact min_le_left _ _
    · exact min_le_of_right_le (counts.min_le still)
  | none =>
    obtain ⟨k, counted, ended⟩ := ends rfl
    have still := stopped_of_ended ended ((run_none_of_ended counted ended).symm.trans done)
    exact le_antisymm (le_min le_top most) (min_le_of_right_le (counts.min_le still))

/-- How a run is divided makes no difference. Runs in a row, up to the first failure of a
    device, leave the machine and the result that one run with the sum of their budgets
    does, and a run without a budget that ends may begin with one that has a budget. A run
    that no device ends takes the least of its budget, the steps left under the ceiling and
    the steps up to a final status, and all of them count; under a ceiling that is reached
    there are none, and a machine that has stopped stays as it is. -/
theorem run_schedule (m : Machine) :
    (∀ budgets : List Nat, m.runEach (budgets.map some) = m.run (some budgets.sum)) ∧
    (m.Ends → ∀ budget : Nat, m.runEach [some budget, none] = m.run none) ∧
    (∀ budget after status, (budget = none → m.Ends) → m.run budget = (after, .ok status) →
      ∃ n : Nat, (n : ℕ∞) = min (limit budget) (min m.allowance m.lifetime) ∧ m.Counts n ∧
        after = m.after n ∧ status = after.status) ∧
    (∀ most, m.maxSteps = some most → most ≤ m.steps → ∀ budget, m.run budget = (m, .ok m.status)) ∧
    (m.status.isFinal = true → m.step = (m, .ok m.status) ∧ ∀ budget, m.run budget = (m, .ok m.status)) := by
  refine ⟨m.runEach_map_some, fun ends => runEach_some_none ends, ?_, ?_, ?_⟩
  · intro budget after status ends done
    exact exists_count_of_run ends done
  · intro most ceiling reached budget
    have still : m.stopped = true := by
      rw [stopped, ceiling]
      simp [reached]
    exact runFor_of_stopped still _
  · intro final
    have still : m.stopped = true := by
      rw [stopped, final]
      rfl
    exact ⟨step_of_isFinal final, fun budget => runFor_of_stopped still _⟩

/-- A `noop` and a halt behind it take two steps. -/
private theorem runFor_noop_halt {memory : Memory} (begins : memory.read? 0 = some 21)
    (ends : memory.read? 1 = some 0) (console : Console) :
    ∃ last, (new (.start memory) console (some 2)).runFor 2 = (last, .ok .halted) ∧
      last.status = .halted ∧ last.steps = 2 ∧ last.maxSteps = some 2 := by
  let passed : Machine := ⟨{ State.start memory with pc := 1 }, console, .running, 1, some 2⟩
  have room : 0 + 1 + Operation.noop.arity ≤ Memory.size := by decide
  have alsoRoom : 1 + 1 + Operation.halt.arity ≤ Memory.size := by decide
  obtain ⟨_, passes⟩ := @State.exists_fetch (.start memory) _ .noop begins rfl room
  obtain ⟨_, halts⟩ := @State.exists_fetch { State.start memory with pc := 1 } _ .halt ends rfl alsoRoom
  have first : (new (.start memory) console (some 2)).step = (passed, .ok .running) := by
    simp only [new, step, execute, passes, Operation.apply]
    rfl
  have second : passed.step = ({ passed with status := .halted, steps := 2 }, .ok .halted) := by
    simp only [passed, step, execute, halts, Operation.apply]
    rfl
  refine ⟨{ passed with status := .halted, steps := 2 }, ?_, rfl, rfl, rfl⟩
  rw [runFor_of_not_stopped rfl, first, goingOn, runFor_of_not_stopped rfl, second]
  rfl

/-- A program that halts in its second step, under a ceiling of two steps. -/
theorem run_schedule_halt :
    let m : Machine := .new (.start (.padded [21])) ⟨.ofBytes [], .new none, [], "save.json", ">>> ", .empty⟩ (some 2)
    ∃ last : Machine, m.Ends ∧ m.runEach [some 1, none] = m.run none ∧ m.runEach [some 1, some 4] = m.run (some 5) ∧
      m.run none = (last, .ok .halted) ∧
      (∃ n : Nat, (n : ℕ∞) = min ⊤ (min m.allowance m.lifetime) ∧ m.Counts n ∧ last = m.after n) ∧
      last.maxSteps = some 2 ∧ last.steps = 2 ∧ last.run (some 3) = (last, .ok last.status) ∧
      last.status.isFinal = true ∧ last.step = (last, .ok last.status) := by
  intro m
  have begins : (Memory.padded [21]).read? 0 = some 21 := Memory.read?_padded _ (by decide)
  have halts : (Memory.padded [21]).read? 1 = some 0 := Memory.read?_padded _ (by decide)
  obtain ⟨last, two, status, steps, ceiling⟩ := runFor_noop_halt begins halts m.console
  have two : m.runFor 2 = (last, .ok .halted) := two
  have final : last.status.isFinal = true := by
    rw [status]
    rfl
  have ended : Ended (m.runFor 2) := by
    refine .inl ?_
    rw [two, stopped, final]
    rfl
  have counted : 2 ≤ longestRun := by simp [longestRun]
  have ends : m.Ends := ⟨2, counted, ended⟩
  have done : m.run none = (last, .ok .halted) := (run_none_of_ended counted ended).trans two
  obtain ⟨sums, begun, counts, -, -⟩ := run_schedule m
  obtain ⟨-, -, -, reached, stays⟩ := run_schedule last
  obtain ⟨n, least, taken, landed, -⟩ := counts none last .halted (fun _ => ends) done
  exact ⟨last, ends, begun ends 1, sums [1, 4], done, ⟨n, least, taken, landed⟩, ceiling, steps,
    reached 2 ceiling (Nat.le_of_eq steps.symm) (some 3), final, (stays final).1⟩

end Machine

end WordMachine
