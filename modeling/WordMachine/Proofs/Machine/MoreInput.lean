import WordMachine.Proofs.Machine.Rewind
import WordMachine.Proofs.Machine.Unseen

/-!
Input that comes later. A run that has read whole lines, and has not been closed, does the
same when more input stands behind them. This holds of a request for input
(`Console.Whole.nextInput`), of a step (`Whole.step`) and so of a whole run
(`after_reading_append`), whatever the lines do.
-/
namespace WordMachine

namespace Console

/-- The console has whole lines to read, and its sink takes all that is written. -/
structure Whole (console : Console) : Prop where
  unread : ∃ bytes, console.source = .ofBytes bytes ∧ Terminated bytes
  roomy : console.sink.room = none

/-- A request that is not closed has read whole lines, and comes to the same with more
    input behind them. -/
theorem Whole.nextInput {console : Console} (whole : console.Whole) (w : Setting) (s : State)
    (opened : (console.nextInput s).1 ≠ .closed) :
    (console.nextInput s).2.1.Whole ∧
      (console.within w).nextInput s
        = ((console.nextInput s).1, (console.nextInput s).2.1.within w, (console.nextInput s).2.2) := by
  revert whole opened
  refine nextInput_induction (P := fun console s came => console.Whole → came.1 ≠ .closed →
    came.2.1.Whole ∧ (console.within w).nextInput s = (came.1, came.2.1.within w, came.2.2)) ?_ ?_ ?_ console s
  · intro console s word rest waiting whole _
    refine ⟨⟨whole.unread, whole.roomy⟩, ?_⟩
    rw [@nextInput_of_pending (console.within w) word rest waiting]
    rfl
  · intro console s delivery after t empty turned whole opened
    obtain ⟨bytes, unread, -⟩ := whole.unread
    rcases turn_of_unread whole.roomy unread s with ⟨-, closes⟩ | ⟨_, _, _, _, _, _, -, -, reads⟩
    · rw [turned] at closes
      cases closes
      exact absurd rfl opened
    · rw [turned] at reads
      cases reads
  · intro console s after t came empty turned ih whole opened
    obtain ⟨bytes, unread, ended⟩ := whole.unread
    rcases turn_of_unread whole.roomy unread s with ⟨-, closes⟩ | ⟨line, later, _, _, _, _, cut, -, reads⟩
    · rw [turned] at closes
      cases closes
    · have something : bytes ≠ [] := by
        rintro rfl
        cases cut
      have steady : console.source.Steady w.more := by
        rw [unread]
        exact Source.steady_of_terminated ended something w.more
      have turns := turn_within steady s
      rw [turned] at turns
      rw [@nextInput_of_turn_none (console.within w) _ s t empty turns]
      rw [turned] at reads
      cases reads
      rw [← append_of_linesOf_eq cut] at ended
      exact ih ⟨⟨_, rfl, ended.of_append⟩, rfl⟩ opened

end Console

namespace Machine

variable {m : Machine}

/-- A step that does not close the input has read whole lines, and is the same with more
    input behind them. -/
theorem Whole.step (whole : m.console.Whole) (w : Setting) (opened : m.step.1.status ≠ .inputClosed) :
    m.step.1.console.Whole ∧ (m.within w).step.1 = m.step.1.within w := by
  cases final : m.status.isFinal with
  | true =>
    rw [step_of_isFinal final, step_of_isFinal (m := m.within w) final]
    exact ⟨whole, rfl⟩
  | false =>
    have runs := Status.eq_running final
    cases waits : m.state.atInput with
    | false =>
      refine ⟨?_, step_within_of_busy waits w⟩
      obtain ⟨bytes, t, status, executes⟩ := exists_execute waits
      rw [step_of_running runs, executes, console_conclude, console_afterWrite,
        Console.write_of_roomy whole.roomy]
      exact ⟨whole.unread, rfl⟩
    | true =>
      have steps := step_of_running runs
      rw [execute_of_atInput waits] at steps
      have goesOn : (m.console.nextInput m.state).1 ≠ .closed := by
        intro closes
        refine opened ?_
        rw [steps]
        rcases came : m.console.nextInput m.state with ⟨delivery, console, s⟩
        rw [came] at closes
        cases closes
        rfl
      obtain ⟨still, same⟩ := whole.nextInput w m.state goesOn
      refine ⟨by rw [steps, console_conclude, console_settle]; exact still, ?_⟩
      rw [steps, step_of_running (m := m.within w) runs]
      show (m.within w).conclude (execute m.state (m.console.within w)) = _
      rw [execute_of_atInput waits, same, settle_within, conclude_within]

/-- A run that has been closed stays closed. -/
theorem status_ne_inputClosed_of_succ {n : Nat} (opened : (m.after (n + 1)).status ≠ .inputClosed) :
    (m.after n).status ≠ .inputClosed := by
  intro closed
  refine opened ?_
  have final : (m.after n).status.isFinal = true := by
    rw [closed]
    rfl
  rw [after, step_of_isFinal final, closed]

theorem Whole.after (whole : m.console.Whole) (w : Setting) {n : Nat} (opened : (m.after n).status ≠ .inputClosed) :
    (m.after n).console.Whole ∧ (m.within w).after n = (m.after n).within w := by
  induction n with
  | zero => exact ⟨whole, rfl⟩
  | succ n ih =>
    obtain ⟨still, same⟩ := ih (status_ne_inputClosed_of_succ opened)
    obtain ⟨later, steps⟩ := Whole.step still w opened
    refine ⟨later, ?_⟩
    rw [Machine.after, Machine.after, same, steps]

theorem unread_feed (source : Source) (more : List UInt8) : (source.feed more).unread = source.unread ++ more := by
  simp [Source.feed, Source.unread, List.filterMap_append, List.filterMap_map, Function.comp_def]

/-- Later input does not change what was before it. A run on whole lines that has not
    closed has come to the same, after every number of steps, as the run on these lines
    with more input behind them, which still has that input to read. -/
theorem after_reading_append {m : Machine} {bytes : List UInt8} (roomy : m.console.sink.room = none)
    (ended : Terminated bytes) (more : List UInt8) {n : Nat}
    (opened : ((m.reading bytes).after n).status ≠ .inputClosed) :
    let first := (m.reading bytes).after n
    let second := (m.reading (bytes ++ more)).after n
    second.state = first.state ∧ second.status = first.status ∧ second.steps = first.steps ∧
      second.console.pending = first.console.pending ∧ second.console.sink.written = first.console.sink.written ∧
      second.console.disk = first.console.disk ∧
      second.console.source.unread = first.console.source.unread ++ more := by
  intro first second
  have whole : (m.reading bytes).console.Whole := ⟨⟨bytes, rfl, ended⟩, roomy⟩
  let w : Setting := ⟨#[], 0, more⟩
  have begins : m.reading (bytes ++ more) = (m.reading bytes).within w := by
    simp only [reading, within, Console.within, w, Source.ofBytes_append, Array.empty_append, Nat.zero_add]
  have same : second = first.within w := by
    rw [show second = ((m.reading bytes).within w).after n from congrArg (·.after n) begins]
    exact (Whole.after whole w opened).2
  rw [same]
  refine ⟨rfl, rfl, Nat.zero_add _, rfl, Array.empty_append, rfl, ?_⟩
  exact unread_feed first.console.source more

/-- A program that has read the first of two lines has not closed. -/
theorem after_reading_append_line :
    let m := onInput (.start (.padded [20, 32768])) "save.json" ">>> " .empty []
    let bytes := Console.bytesOfText "a\n"
    let more := Console.bytesOfText "b\n"
    m.console.sink.room = none ∧ Terminated bytes ∧ ((m.reading bytes).after 1).status ≠ .inputClosed ∧
      ((m.reading (bytes ++ more)).after 1).state = ((m.reading bytes).after 1).state ∧
      ((m.reading (bytes ++ more)).after 1).console.source.unread
        = ((m.reading bytes).after 1).console.source.unread ++ more := by
  intro m bytes more
  have ended : Terminated bytes := by decide
  have opcode : m.state.memory.read? m.state.pc.toNat = some 20 := Memory.read?_padded _ (by decide)
  have waits : m.state.atInput = true := State.atInput_iff_read?.mpr ⟨by decide, opcode⟩
  have reads : (m.reading bytes).console.Reads [bytes] := ⟨⟨bytes, rfl, by decide⟩, rfl⟩
  have effect : Effect "save.json" (Utf8.decodeLossy (chomp bytes)) m.state .empty [97, 10] "" m.state .empty := by
    have text : chomp bytes = Utf8.encode "a".toList := rfl
    rw [text, Utf8.decodeLossy_encode]
    exact .input rfl
  have asked := (reads.nextInput rfl effect).trans (Console.nextInput_of_pending rfl m.state)
  have opened : ((m.reading bytes).after 1).status ≠ .inputClosed := by
    rw [after_one]
    exact status_step_of_word (m := m.reading bytes) rfl waits asked
  obtain ⟨state, -, -, -, -, -, unread⟩ := after_reading_append (m := m) rfl ended more opened
  exact ⟨rfl, ended, opened, state, unread⟩

end Machine

end WordMachine
