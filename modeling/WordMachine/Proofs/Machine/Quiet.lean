import Mathlib.Data.Nat.Find
import WordMachine.Proofs.Machine.Setting
import WordMachine.Proofs.Slot.RoundTrip

/-!
Runs on devices that do not fail. Such a run takes the lines of its input one after the
other (`Moment.Quiet.next`). On an input that is at the end of a line it is the same run
in every setting, up to the moment at which it would read on (`after_within`); and a run
that gets to the input after it goes through that moment (`exists_starved`).
-/
namespace WordMachine

/-- No line moves the program counter out of memory. -/
theorem Effect.inside {slot : String} {line : List Char} {s t : State} {disk after : Disk} {words : List Word}
    {answer : String} (effect : Effect slot line s disk words answer t after) (inside : s.pc.toNat < Memory.size) :
    t.pc.toNat < Memory.size := by
  cases effect with
  | loaded _ loaded => exact Slot.inside_of_load loaded
  | input | saved | notSaved | notLoaded | registerSet | refused => exact inside

/-- Only a line that begins with `save` changes the disk. -/
theorem Effect.disk_of_unsaved {slot : String} {line : List Char} {s t : State} {disk after : Disk}
    {words : List Word} {answer : String} (effect : Effect slot line s disk words answer t after)
    (unsaved : Command.beginsWith "save" (String.ofList line) = false) : after = disk := by
  cases effect with
  | saved parsed _ =>
    rw [Command.beginsWith_of_parse_save parsed] at unsaved
    cases unsaved
  | input | notSaved | loaded | notLoaded | registerSet | refused => rfl

theorem Terminated.of_append {first second : List UInt8} (ended : Terminated (first ++ second)) :
    Terminated second := by
  intro b found
  exact ended b (by rw [List.getLast?_append, found, Option.some_or])

namespace Moment

/-- A moment of a run without a ceiling, on devices that do not fail, with the given
    input unread. While it asks, its machine runs and has its program counter in memory. -/
structure Quiet (slot prompt : String) (bytes : List UInt8) (x : Moment) : Prop where
  slot : x.machine.console.slot = slot
  prompt : x.machine.console.prompt = prompt
  source : x.machine.console.source = .ofBytes bytes
  roomy : x.machine.console.sink.room = none
  unlimited : x.machine.maxSteps = none
  waits : x.asking = true → x.machine.status = .running ∧ x.machine.state.pc.toNat < Memory.size

/-- What the next line of the given input does to a state and a disk. -/
def Obeyed (slot : String) (bytes rest : List UInt8) (s t : State) (disk after : Disk) : Prop :=
  ∃ line later words answer, linesOf bytes = line :: later ∧ rest = later.flatten ∧
    Effect slot (Utf8.decodeLossy (chomp line)) s disk words answer t after

/-- The next moment has all of the input still unread and leaves the disk as it is, or
    a line of the input has been obeyed. -/
theorem Quiet.next {slot prompt : String} {bytes : List UInt8} {x : Moment} (quiet : x.Quiet slot prompt bytes) :
    ∃ rest, x.next.Quiet slot prompt rest ∧
      (rest = bytes ∧ x.next.machine.console.disk = x.machine.console.disk ∨
        Obeyed slot bytes rest x.machine.state x.next.machine.state
          x.machine.console.disk x.next.machine.console.disk) := by
  refine next_cases (P := fun y => ∃ rest, y.Quiet slot prompt rest ∧
      (rest = bytes ∧ y.machine.console.disk = x.machine.console.disk ∨
        Obeyed slot bytes rest x.machine.state y.machine.state
          x.machine.console.disk y.machine.console.disk)) x ?_ ?_ ?_ ?_ ?_ ?_
  · intro _ _
    exact ⟨bytes, quiet, .inl ⟨rfl, rfl⟩⟩
  · intro _ runs waits
    have inside : x.machine.state.pc.toNat < Memory.size := State.inside_of_atInput waits
    exact ⟨bytes, { quiet with waits := fun _ => ⟨runs, inside⟩ }, .inl ⟨rfl, rfl⟩⟩
  · intro _ runs busy
    obtain ⟨written, t, status, executes⟩ := Machine.exists_execute busy
    rw [Machine.step_of_running runs, executes, Console.write_of_roomy quiet.roomy]
    exact ⟨bytes, { quiet with roomy := rfl, waits := nofun }, .inl ⟨rfl, rfl⟩⟩
  · intro word rest _ _
    exact ⟨bytes, { quiet with waits := nofun }, .inl ⟨rfl, rfl⟩⟩
  · intro delivery console s _ _ turned
    rcases Console.turn_of_unread quiet.roomy quiet.source x.machine.state with
      ⟨-, closes⟩ | ⟨_, _, _, _, _, _, -, -, reads⟩
    · rw [turned] at closes
      cases closes
      exact ⟨bytes, { quiet with roomy := rfl, waits := nofun }, .inl ⟨rfl, rfl⟩⟩
    · rw [turned] at reads
      cases reads
  · intro console s asks _ turned
    rcases Console.turn_of_unread quiet.roomy quiet.source x.machine.state with
      ⟨-, closes⟩ | ⟨line, later, words, answer, t, after, cut, effect, reads⟩
    · rw [turned] at closes
      cases closes
    · rw [turned] at reads
      cases reads
      obtain ⟨runs, inside⟩ := quiet.waits asks
      refine ⟨later.flatten, ⟨quiet.slot, quiet.prompt, rfl, rfl, quiet.unlimited, ?_⟩, .inr ?_⟩
      · intro _
        exact ⟨runs, effect.inside inside⟩
      · rw [quiet.slot] at effect
        exact ⟨line, later, words, answer, cut, rfl, effect⟩

theorem Quiet.within {slot prompt : String} {bytes : List UInt8} {x : Moment} (quiet : x.Quiet slot prompt bytes)
    (w : Setting) : (x.within w).Quiet slot prompt (bytes ++ w.more) where
  slot := quiet.slot
  prompt := quiet.prompt
  source := by
    rw [Source.ofBytes_append, ← quiet.source]
    rfl
  roomy := quiet.roomy
  unlimited := quiet.unlimited
  waits := quiet.waits

/-! ### Whole lines -/

/-- The machine is about to ask for a line, and the given input is unread. -/
def AtPrompt (x : Moment) (rest : List UInt8) : Prop :=
  x.asking = true ∧ x.machine.console.pending = [] ∧ x.machine.console.source = .ofBytes rest

theorem AtPrompt.within {x : Moment} {rest : List UInt8} (asks : x.AtPrompt rest) (w : Setting) :
    (x.within w).AtPrompt (rest ++ w.more) := by
  obtain ⟨asking, empty, unread⟩ := asks
  refine ⟨asking, empty, ?_⟩
  rw [Source.ofBytes_append, ← unread]
  rfl

/-- What is unread in a setting ends with what comes after. -/
theorem AtPrompt.of_within {slot prompt : String} {bytes rest : List UInt8} {x : Moment}
    (quiet : x.Quiet slot prompt bytes) {w : Setting} (asks : (x.within w).AtPrompt rest) :
    rest = bytes ++ w.more ∧ x.AtPrompt bytes := by
  obtain ⟨asking, empty, unread⟩ := asks
  have unread : x.machine.console.source.feed w.more = .ofBytes rest := unread
  rw [quiet.source, ← Source.ofBytes_append] at unread
  have same := congrArg Source.unread unread
  rw [Source.unread_ofBytes, Source.unread_ofBytes] at same
  exact ⟨same.symm, asking, empty, quiet.source⟩

theorem AtPrompt.unread_unique {first second : List UInt8} {x : Moment} (asks : x.AtPrompt first)
    (again : x.AtPrompt second) : first = second := by
  have same := congrArg Source.unread (asks.2.2.symm.trans again.2.2)
  rw [Source.unread_ofBytes, Source.unread_ofBytes] at same
  exact same

theorem AtPrompt.of_within_of_last {rest : List UInt8} {x : Moment} {w : Setting} (last : w.more = [])
    (asks : (x.within w).AtPrompt rest) : x.AtPrompt rest := by
  obtain ⟨asking, empty, unread⟩ := asks
  have unread : x.machine.console.source.feed w.more = .ofBytes rest := unread
  rw [last, Source.feed_nil] at unread
  exact ⟨asking, empty, unread⟩

/-- A run on whole lines stays one, and reads no other lines. -/
theorem Quiet.after {slot prompt : String} {bytes : List UInt8} {x : Moment} (quiet : x.Quiet slot prompt bytes)
    (ended : Terminated bytes) (n : Nat) :
    ∃ rest, (x.after n).Quiet slot prompt rest ∧ Terminated rest ∧ ∀ line ∈ linesOf rest, line ∈ linesOf bytes := by
  induction n with
  | zero => exact ⟨bytes, quiet, ended, fun line member => member⟩
  | succ n ih =>
    obtain ⟨rest, still, ends, read⟩ := ih
    obtain ⟨left, later, ⟨rfl, -⟩ | ⟨line, lines, words, answer, cut, rfl, -⟩⟩ := still.next
    · exact ⟨left, later, ends, read⟩
    · refine ⟨lines.flatten, later, ?_, ?_⟩
      · rw [← append_of_linesOf_eq cut] at ends
        exact ends.of_append
      · intro other member
        rw [linesOf_flatten_of_cons cut] at member
        exact read other (by rw [cut]; exact List.mem_cons_of_mem line member)

/-- A run on whole lines leaves the disk as it is if none of them is a save. -/
theorem Quiet.disk_after {slot prompt : String} {bytes : List UInt8} {x : Moment} (quiet : x.Quiet slot prompt bytes)
    (ended : Terminated bytes)
    (unsaved : ∀ line ∈ linesOf bytes, Command.beginsWith "save" (Console.textOfLine line) = false) (n : Nat) :
    (x.after n).machine.console.disk = x.machine.console.disk := by
  induction n with
  | zero => rfl
  | succ n ih =>
    obtain ⟨rest, still, -, read⟩ := quiet.after ended n
    obtain ⟨_, -, ⟨-, kept⟩ | ⟨line, later, words, answer, cut, -, effect⟩⟩ := still.next
    · exact kept.trans ih
    · have unsaved := unsaved line (read line (by rw [cut]; exact List.mem_cons_self))
      exact (effect.disk_of_unsaved unsaved).trans ih

/-- Up to the moment at which it has to read on, a run on whole lines is the same in
    every setting. -/
theorem Quiet.after_within {slot prompt : String} {bytes : List UInt8} {x : Moment}
    (quiet : x.Quiet slot prompt bytes) (ended : Terminated bytes) {n : Nat}
    (fed : ∀ k < n, ¬ (x.after k).AtPrompt []) (w : Setting) : (x.within w).after n = (x.after n).within w := by
  induction n with
  | zero => rfl
  | succ n ih =>
    rw [after_succ, after_succ, ih fun k before => fed k (Nat.lt_succ_of_lt before)]
    obtain ⟨rest, still, ends, -⟩ := quiet.after ended n
    refine next_within _ w ?_
    intro asks empty
    rw [still.source]
    refine Source.steady_of_terminated ends ?_ w.more
    rintro rfl
    exact fed n (Nat.lt_succ_self n) ⟨asks, empty, still.source⟩

/-- A run that comes to the input after its own lines has been, on those lines alone, at
    a moment at which it had to read on, and is the same in every setting until then. -/
theorem Quiet.exists_starved {slot prompt : String} {bytes : List UInt8} {x : Moment}
    (quiet : x.Quiet slot prompt bytes) (ended : Terminated bytes) {w : Setting} {n : Nat} {rest : List UInt8}
    (comes : ((x.within w).after n).AtPrompt rest) (short : rest.length ≤ w.more.length) :
    ∃ k ≤ n, (x.after k).AtPrompt [] ∧ ∀ (v : Setting), ∀ j ≤ k, (x.within v).after j = (x.after j).within v := by
  classical
  have starves : ∃ k, k ≤ n ∧ (x.after k).AtPrompt [] := by
    by_contra never
    have fed : ∀ k < n, ¬ (x.after k).AtPrompt [] :=
      fun k before starved => never ⟨k, Nat.le_of_lt before, starved⟩
    rw [quiet.after_within ended fed w] at comes
    obtain ⟨left, still, -, -⟩ := quiet.after ended n
    obtain ⟨rfl, starved⟩ := comes.of_within still
    rw [List.length_append] at short
    have nothing : left = [] := List.length_eq_zero_iff.mp (by omega)
    rw [nothing] at starved
    exact never ⟨n, Nat.le_refl n, starved⟩
  obtain ⟨below, starved⟩ := Nat.find_spec starves
  refine ⟨Nat.find starves, below, starved, ?_⟩
  intro v j before
  refine quiet.after_within ended ?_ v
  intro k earlier starved
  have first : k < Nat.find starves := Nat.lt_of_lt_of_le earlier before
  exact Nat.find_min starves first ⟨Nat.le_trans (Nat.le_of_lt first) below, starved⟩

end Moment

end WordMachine
