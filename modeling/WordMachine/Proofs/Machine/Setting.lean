import WordMachine.Proofs.Machine.Moment

/-!
Parts of a run in their setting. A setting is what surrounds a part of a run: bytes that
were written and steps that were taken before it, and input that comes after it. A
machine does the same in every setting (`Moment.next_within`), as long as it does not
read past the end of its own part of the input.
-/
namespace WordMachine

/-- What surrounds a part of a run. -/
structure Setting where
  /-- The bytes written before. -/
  said : Array UInt8
  /-- The steps taken before. -/
  steps : Nat
  /-- The input that comes after. -/
  more : List UInt8

/-- The next line, or the failure that comes in its place, does not change if more input
    is to come. -/
def Source.Steady (source : Source) (more : List UInt8) : Prop :=
  (source.feed more).readLine = (source.readLine.1, source.readLine.2.feed more)

theorem Source.feed_nil (source : Source) : source.feed [] = source := by
  simp [feed]

theorem Source.steady_nil (source : Source) : source.Steady [] := by
  rw [Steady, feed_nil, feed_nil]

/-- An input that is at the end of a line has that line to give. -/
theorem Source.steady_of_terminated {bytes : List UInt8} (ended : Terminated bytes) (some : bytes ≠ [])
    (more : List UInt8) : (ofBytes bytes).Steady more := by
  rw [Steady, ← ofBytes_append, readLine_ofBytes, readLine_ofBytes, linesOf_append ended]
  cases cut : linesOf bytes with
  | nil => exact absurd (linesOf_eq_nil_iff.mp cut) some
  | cons line later =>
    simp only [List.cons_append, ← ofBytes_append, List.flatten_append, flatten_linesOf]

namespace Console

/-- A console in a setting. -/
def within (console : Console) (w : Setting) : Console :=
  { console with
    source := console.source.feed w.more
    sink := ⟨w.said ++ console.sink.written, console.sink.room⟩ }

theorem write_within (console : Console) (w : Setting) (bytes : List UInt8) :
    (console.within w).write bytes = ((console.write bytes).1.within w, (console.write bytes).2) := by
  obtain ⟨source, ⟨written, room⟩, pending, slot, prompt, disk⟩ := console
  cases room with
  | none => simp only [within, write, Sink.write, Sink.append_assoc]
  | some room => simp only [within, write, Sink.write, Sink.append_assoc]

theorem respond_within (console : Console) (w : Setting) (s : State) (line : String) :
    (console.within w).respond s line = ((console.respond s line).1.within w, (console.respond s line).2) := by
  simp only [respond]
  cases Command.parse line with
  | error error => rfl
  | ok command =>
    cases command with
    | save =>
      simp only [within]
      cases Slot.save console.disk console.slot s <;> rfl
    | load =>
      simp only [within]
      cases Slot.load console.disk console.slot <;> rfl
    | setRegister7 value => rfl
    | input text => rfl

theorem answer_within (console : Console) (w : Setting) (reply : Option String) :
    (console.within w).answer reply = ((console.answer reply).1.within w, (console.answer reply).2) := by
  cases reply with
  | none => rfl
  | some reply => exact write_within console w _

theorem turn_within {console : Console} {w : Setting} (steady : console.source.Steady w.more) (s : State) :
    (console.within w).turn s
      = ((console.turn s).1, (console.turn s).2.1.within w, (console.turn s).2.2) := by
  have kept := source_write console (bytesOfText console.prompt)
  have prompted : (console.within w).prompt = console.prompt := rfl
  simp only [turn, prompted, write_within]
  rcases written : console.write (bytesOfText console.prompt) with ⟨asked, _ | error⟩
  · rw [written] at kept
    have source : (asked.within w).source = console.source.feed w.more := by
      rw [← kept]
      rfl
    simp only at kept
    simp only [source, kept]
    rw [Source.Steady] at steady
    rw [steady]
    rcases console.source.readLine with ⟨line | _ | error, rest⟩
    · have reads : ({ asked.within w with source := rest.feed w.more } : Console)
          = within { asked with source := rest } w := rfl
      simp only [reads, respond_within, answer_within]
      rcases respond { asked with source := rest } s (textOfLine line) with ⟨obeyed, t, reply⟩
      rcases obeyed.answer reply with ⟨answered, _ | error⟩ <;> rfl
    · rfl
    · rfl
  · rfl

end Console

namespace Machine

/-- A machine in a setting. -/
def within (m : Machine) (w : Setting) : Machine :=
  { m with console := m.console.within w, steps := w.steps + m.steps }

theorem settle_within (came : Delivery) (console : Console) (w : Setting) (s : State) :
    settle (came, console.within w, s)
      = ((settle (came, console, s)).1, (settle (came, console, s)).2.1.within w, (settle (came, console, s)).2.2) := by
  cases came <;> rfl

theorem conclude_within (m : Machine) (w : Setting) (s : State) (console : Console)
    (result : Except DeviceError Status) :
    (m.within w).conclude (s, console.within w, result) = (m.conclude (s, console, result)).within w := by
  cases result <;> rfl

theorem afterWrite_within (s t : State) (status : Status) (console : Console) (w : Setting)
    (failure : Option DeviceError) :
    afterWrite s t status (console.within w, failure)
      = ((afterWrite s t status (console, failure)).1, (afterWrite s t status (console, failure)).2.1.within w,
          (afterWrite s t status (console, failure)).2.2) := by
  cases failure <;> rfl

/-- An instruction other than `in` does not read. -/
theorem step_within_of_busy {m : Machine} (busy : m.state.atInput = false) (w : Setting) :
    (m.within w).step.1 = m.step.1.within w := by
  cases final : m.status.isFinal with
  | true =>
    rw [step_of_isFinal (m := m.within w) final, step_of_isFinal final]
  | false =>
    have runs : m.status = .running := Status.eq_running final
    obtain ⟨bytes, t, status, executes⟩ := exists_execute busy
    rw [step_of_running runs, step_of_running (m := m.within w) runs]
    show (m.within w).conclude (execute m.state (m.console.within w)) = _
    rw [executes, executes, Console.write_within, afterWrite_within, conclude_within]

end Machine

namespace Moment

/-- A moment in a setting. -/
def within (x : Moment) (w : Setting) : Moment := ⟨x.machine.within w, x.asking⟩

/-- The next moment is the same in every setting, unless a line has to be read that is
    not there. -/
theorem next_within (x : Moment) (w : Setting)
    (steady : x.asking = true → x.machine.console.pending = [] → x.machine.console.source.Steady w.more) :
    (x.within w).next = x.next.within w := by
  refine next_cases (P := fun y => (x.within w).next = y.within w) x ?_ ?_ ?_ ?_ ?_ ?_
  · intro idle final
    obtain ⟨m, asking⟩ := x
    cases idle
    exact next_of_final (m := m.within w) final
  · intro idle runs waits
    obtain ⟨m, asking⟩ := x
    cases idle
    exact next_of_waiting (m := m.within w) runs waits
  · intro idle _ busy
    obtain ⟨m, asking⟩ := x
    cases idle
    rw [within, within, next_of_busy (m := m.within w) busy, Machine.step_within_of_busy busy]
  · intro word rest asks waiting
    obtain ⟨m, asking⟩ := x
    cases asks
    rw [within, next_of_pending (m := m.within w) waiting]
    rfl
  · intro delivery console s asks empty turned
    have turns := Console.turn_within (steady asks empty) x.machine.state
    rw [turned] at turns
    obtain ⟨m, asking⟩ := x
    cases asks
    rw [within, next_of_turn_some (m := m.within w) empty turns, Machine.settle_within, Machine.conclude_within]
    rfl
  · intro console s asks empty turned
    have turns := Console.turn_within (steady asks empty) x.machine.state
    rw [turned] at turns
    obtain ⟨m, asking⟩ := x
    cases asks
    rw [within, next_of_turn_none (m := m.within w) empty turns]
    rfl

/-- Nothing has to be there after a part of a run that may read to the end of it. -/
theorem next_within_of_last (x : Moment) {w : Setting} (last : w.more = []) :
    (x.within w).next = x.next.within w := by
  refine next_within x w ?_
  intro _ _
  rw [last]
  exact Source.steady_nil _

theorem after_within_of_last (x : Moment) {w : Setting} (last : w.more = []) (n : Nat) :
    (x.within w).after n = (x.after n).within w := by
  induction n with
  | zero => rfl
  | succ n ih => rw [after_succ, after_succ, ih, next_within_of_last _ last]

theorem finish_within_of_last (x : Moment) {w : Setting} (last : w.more = []) :
    (x.within w).finish = x.finish.within w := by
  cases asks : x.asking with
  | false => simp [finish, within, asks]
  | true =>
    have ending := finish_next x
    have endingThere := finish_next (x.within w)
    rw [if_pos asks] at ending
    rw [if_pos (show (x.within w).asking = true from asks), next_within_of_last x last] at endingThere
    rw [← ending, ← endingThere]
    cases again : x.next.asking with
    | false => simp [finish, within, again]
    | true =>
      have shorter := length_source_next_lt asks again
      exact finish_within_of_last x.next last
termination_by x.machine.console.source.signals.length

end Moment

namespace Machine

/-- A step is the same whatever was written and done before it. -/
theorem step_within_of_last (m : Machine) {w : Setting} (last : w.more = []) :
    (m.within w).step.1 = m.step.1.within w := by
  have here := Moment.finish_next ⟨m, false⟩
  have there := Moment.finish_next ⟨m.within w, false⟩
  simp only [Bool.false_eq_true, if_false] at here there
  rw [← here, ← there, ← Moment.finish_within_of_last _ last, ← Moment.next_within_of_last _ last]
  rfl

theorem after_within_of_last (m : Machine) {w : Setting} (last : w.more = []) (n : Nat) :
    (m.within w).after n = (m.after n).within w := by
  induction n with
  | zero => rfl
  | succ n ih =>
    rw [after, after, ih]
    exact step_within_of_last _ last

end Machine

end WordMachine
