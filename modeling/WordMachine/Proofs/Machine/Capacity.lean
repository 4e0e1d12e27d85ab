import WordMachine.Proofs.Console.Capacity
import WordMachine.Proofs.Machine.Step

/-!
A machine whose output device takes so many bytes in all, beside the same machine on one
that takes any number. Both do the same as long as the output fits (`after_capped`). The
first step that would write more fails, having written as many of its bytes as fit, and
does not count (`full_output_truncates`).
-/
namespace WordMachine

namespace Machine
open Console (Onward Stuck)

/-- The machine on a sink that takes so many bytes in all. -/
def capped (m : Machine) (limit : Nat) : Machine := { m with console := m.console.capped limit }

/-- An instruction on a sink that takes so many bytes in all. -/
theorem execute_capped {console : Console} (roomy : console.sink.room = none) (s : State) :
    Onward console (execute s console).2.1 ∧ ∀ limit, console.said.length ≤ limit →
      ((execute s console).2.1.said.length ≤ limit →
        execute s (console.capped limit)
          = ((execute s console).1, (execute s console).2.1.capped limit, (execute s console).2.2)) ∧
      (limit < (execute s console).2.1.said.length →
        ∃ t stuck, execute s (console.capped limit) = (t, stuck, .error .outputFull) ∧
          Stuck limit (execute s console).2.1 stuck) := by
  cases waits : s.atInput with
  | true =>
    obtain ⟨onward, truncated⟩ := Console.nextInput_capped roomy s
    simp only [execute_of_atInput waits, console_settle]
    refine ⟨onward, fun limit fits => ⟨?_, ?_⟩⟩
    · intro all
      rw [(truncated limit fits).fits all]
      rcases console.nextInput s with ⟨_ | _ | _, after, t⟩ <;> rfl
    · intro beyond
      obtain ⟨stuck, t, asks, full⟩ := (truncated limit fits).beyond beyond
      rw [asks]
      exact ⟨t, stuck, rfl, full⟩
  | false =>
    obtain ⟨bytes, t, status, executes⟩ := exists_execute waits
    have onward := Console.onward_write roomy bytes
    simp only [executes, afterWrite_of_roomy roomy]
    refine ⟨onward, fun limit fits => ⟨?_, ?_⟩⟩
    · intro all
      rw [Console.write_capped roomy fits, if_pos all]
      rfl
    · intro beyond
      rw [Console.write_capped roomy fits, if_neg (Nat.not_le_of_lt beyond)]
      exact ⟨s, _, rfl, Console.stuck_capped _ limit⟩

/-- A step on a sink that takes so many bytes in all. -/
theorem step_capped {m : Machine} (roomy : m.console.sink.room = none) :
    Onward m.console m.step.1.console ∧ ∀ limit, m.console.said.length ≤ limit →
      (m.step.1.console.said.length ≤ limit → (m.capped limit).step = (m.step.1.capped limit, m.step.2)) ∧
      (limit < m.step.1.console.said.length →
        ∃ stuck, (m.capped limit).step = (stuck, .error .outputFull) ∧ Stuck limit m.step.1.console stuck.console ∧
          stuck.status = .running ∧ stuck.steps = m.steps) := by
  cases final : m.status.isFinal with
  | true =>
    rw [step_of_isFinal final]
    refine ⟨⟨roomy, List.prefix_rfl⟩, fun limit fits => ⟨?_, ?_⟩⟩
    · intro _
      exact @step_of_isFinal (m.capped limit) final
    · intro beyond
      exact absurd fits (Nat.not_le_of_lt beyond)
  | false =>
    have runs := Status.eq_running final
    have steps (limit : Nat) : (m.capped limit).step
        = ((m.capped limit).conclude (execute m.state (m.console.capped limit)),
            (execute m.state (m.console.capped limit)).2.2) :=
      @step_eq_of_running (m.capped limit) runs
    obtain ⟨onward, truncated⟩ := execute_capped roomy m.state
    rw [step_eq_of_running runs]
    simp only [console_conclude]
    refine ⟨onward, fun limit fits => ⟨?_, ?_⟩⟩
    · intro all
      rw [steps, (truncated limit fits).1 all]
      rcases execute m.state m.console with ⟨t, after, error | status⟩ <;> rfl
    · intro beyond
      obtain ⟨t, stuck, executes, full⟩ := (truncated limit fits).2 beyond
      rw [steps, executes]
      exact ⟨_, rfl, full, runs, rfl⟩

/-- Steps on a sink that takes so many bytes in all, as long as what is written fits. -/
theorem after_capped {m : Machine} (roomy : m.console.sink.room = none) (n : Nat) :
    Onward m.console (m.after n).console ∧ ∀ limit, (m.after n).console.said.length ≤ limit →
      (m.capped limit).after n = (m.after n).capped limit := by
  induction n with
  | zero => exact ⟨⟨roomy, List.prefix_rfl⟩, fun _ _ => rfl⟩
  | succ n ih =>
    obtain ⟨onward, same⟩ := ih
    obtain ⟨further, truncated⟩ := step_capped onward.roomy
    refine ⟨onward.trans further, fun limit fits => ?_⟩
    have before := Nat.le_trans further.said.length_le fits
    rw [after, same limit before, ((truncated limit before).1 fits)]
    rfl

/-- The machine with a new sink, which has room for so many bytes, if that is bounded. -/
def writingTo (m : Machine) (room : Option Nat) : Machine :=
  { m with console := { m.console with sink := .new room } }

/-- A full output device truncates a session and does nothing else to it. A machine on a
    sink with a bound agrees with the same machine on one without, after each number of
    steps, as long as what the second has written fits. The first step of the second that
    goes beyond the bound fails on the first, which then has written the beginning of what
    the second has, runs on and has not counted the step. -/
theorem full_output_truncates (m : Machine) (limit : Nat) :
    let output (n : Nat) := ((m.writingTo none).after n).console.said
    (∀ n, (output n).length ≤ limit →
      let free := (m.writingTo none).after n
      let bound := (m.writingTo (some limit)).after n
      bound.state = free.state ∧ bound.status = free.status ∧ bound.steps = free.steps ∧
        bound.console.pending = free.console.pending ∧ bound.console.source = free.console.source ∧
        bound.console.slot = free.console.slot ∧ bound.console.disk = free.console.disk ∧
        bound.console.said = output n) ∧
    (∀ n, (output n).length ≤ limit → limit < (output (n + 1)).length →
      let bound := (m.writingTo (some limit)).after n
      bound.step.2 = .error .outputFull ∧ bound.step.1.console.said = (output (n + 1)).take limit ∧
        bound.step.1.status = .running ∧ bound.step.1.steps = bound.steps) := by
  intro output
  have begins : m.writingTo (some limit) = (m.writingTo none).capped limit := by
    simp [writingTo, capped, Console.capped, Sink.new, Sink.capped]
  have roomy : (m.writingTo none).console.sink.room = none := rfl
  rw [begins]
  refine ⟨?_, ?_⟩
  · intro n fits free bound
    have same : bound = free.capped limit := (after_capped roomy n).2 limit fits
    rw [same]
    exact ⟨rfl, rfl, rfl, rfl, rfl, rfl, rfl, List.take_of_length_le fits⟩
  · intro n fits beyond bound
    obtain ⟨onward, same⟩ := after_capped roomy n
    have same : bound = ((m.writingTo none).after n).capped limit := same limit fits
    obtain ⟨stuck, stepped, full, runs, uncounted⟩ := ((step_capped onward.roomy).2 limit fits).2 beyond
    rw [same, stepped]
    exact ⟨rfl, full, runs, uncounted⟩

/-- Half of the prompt fits. -/
theorem full_output_truncates_prompt :
    let source : Source := .ofBytes []
    let m : Machine := new (.start (.padded [20, 32768])) ⟨source, .new none, [], "save.json", ">>> ", .empty⟩ none
    ((m.writingTo none).after 0).console.said.length ≤ 2 ∧ 2 < ((m.writingTo none).after 1).console.said.length ∧
      ((m.writingTo (some 2)).after 0).step.2 = .error .outputFull ∧
      ((m.writingTo (some 2)).after 0).step.1.console.said = Console.bytesOfText ">>" := by
  intro source m
  have opcode : m.state.memory.read? m.state.pc.toNat = some 20 := Memory.read?_padded _ (by decide)
  have waits : m.state.atInput = true := State.atInput_iff_read?.mpr ⟨by decide, opcode⟩
  have closes := @Console.nextInput_of_end (m.writingTo none).console rfl rfl rfl m.state
  have said : ((m.writingTo none).after 1).console.said = Console.bytesOfText ">>> " := by
    have executes : execute (m.writingTo none).state (m.writingTo none).console
        = settle ((m.writingTo none).console.nextInput m.state) := execute_of_atInput waits _
    rw [after_one, step_of_running rfl, executes, closes]
    simp [conclude, settle, Console.said, writingTo, Sink.new, m, new]
  have fits : ((m.writingTo none).after 0).console.said.length ≤ 2 := Nat.zero_le 2
  have beyond : 2 < ((m.writingTo none).after 1).console.said.length := by
    rw [said]
    decide
  obtain ⟨fails, cut, -, -⟩ := (full_output_truncates m 2).2 0 fits beyond
  have half : ((m.writingTo none).after 1).console.said.take 2 = Console.bytesOfText ">>" := by
    rw [said]
    rfl
  exact ⟨fits, beyond, fails, cut.trans half⟩

end Machine

end WordMachine
