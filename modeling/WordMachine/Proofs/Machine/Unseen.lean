import WordMachine.Proofs.Machine.Comparison
import WordMachine.Proofs.Slot.Alike

/-!
Lines that a program does not see. A line that saves, and a `reg7` that is refused, are
answered and change nothing but the slot (`besideHarmless`). Put anywhere into an input
that never loads, they leave every step of the run as it is, with what `out` writes
(`harmless_unseen`).
-/
namespace WordMachine

/-- The second input comes of the first by putting in whole lines of a kind, each where a
    line begins or the input ends. -/
inductive Padded (extra : List UInt8 → Prop) (bytes : List UInt8) : List UInt8 → Prop
  | none : Padded extra bytes bytes
  | line {before text after : List UInt8} : Padded extra bytes (before ++ after) → Terminated before → 10 ∉ text →
      extra (text ++ [10]) → Padded extra bytes (before ++ (text ++ 10 :: after))

theorem Padded.interposed {extra : List UInt8 → Prop} {bytes more : List UInt8} (padded : Padded extra bytes more) :
    Interposed extra (linesOf bytes) (linesOf more) := by
  induction padded with
  | none => exact .refl extra _
  | line _ ended unbroken new ih =>
    rw [linesOf_append ended] at ih ⊢
    rw [linesOf_of_end unbroken]
    exact ih.insert_between new

/-- A line that begins with `save`, or one that begins with `reg7` and is refused. -/
def Harmless (line : List UInt8) : Prop :=
  Command.beginsWith "save" (Console.textOfLine line) = true ∨
    Command.beginsWith "reg7" (Console.textOfLine line) = true ∧
      ∃ error, Command.parse (Console.textOfLine line) = .error error

/-- A harmless line has no words for the program, leaves the state as it is, and does no
    more to the disk than a save. -/
theorem Harmless.effect {slot : String} {line : List UInt8} {s t : State} {disk after : Disk} {words : List Word}
    {answer : String} (harmless : Harmless line)
    (effect : Effect slot (Utf8.decodeLossy (chomp line)) s disk words answer t after) :
    words = [] ∧ t = s ∧ (after = disk ∨ Slot.save disk slot s = .ok after) := by
  have parsed : Command.parse (Console.textOfLine line) = .ok .save ∨
      ∃ error, Command.parse (Console.textOfLine line) = .error error := by
    rcases harmless with begins | ⟨-, refused⟩
    · exact .inl (if_pos begins)
    · exact .inr refused
  cases effect with
  | saved _ saved => exact ⟨rfl, rfl, .inr saved⟩
  | notSaved _ _ => exact ⟨rfl, rfl, .inl rfl⟩
  | refused _ => exact ⟨rfl, rfl, .inl rfl⟩
  | input is | loaded is _ | notLoaded is _ | registerSet is =>
    rcases parsed with other | ⟨error, other⟩
    · cases other.symm.trans is
    · cases other.symm.trans is

namespace Comparison

/-- A run that never loads, beside one with harmless lines in between. -/
def besideHarmless (slot prompt : String) (written : Array UInt8) (steps : Nat) : Comparison where
  slot := slot
  prompt := prompt
  kept line := Command.beginsWith "load" (Console.textOfLine line) = false
  extra := Harmless
  alike := Disk.AlikeBut slot
  said := written
  told := written
  early := steps
  late := steps
  both loadless alike effect := by
    refine effect.of_alike alike alike.save alike.refused fun loads => ?_
    exact absurd (Command.beginsWith_of_parse_load loads) (Bool.eq_false_iff.mp loadless)
  alone harmless alike effect := by
    obtain ⟨none, same, rfl | saved⟩ := harmless.effect effect
    · exact ⟨none, same, alike⟩
    · exact ⟨none, same, alike.save_second saved⟩

end Comparison

namespace Machine

/-- The machine with another input to come. -/
def reading (m : Machine) (bytes : List UInt8) : Machine :=
  { m with console := { m.console with source := .ofBytes bytes } }

/-- What the next step writes if it is an `out`. -/
def utterance (m : Machine) : List UInt8 :=
  match m.status, m.state.fetch with
  | .running, .ok (.out _) => m.step.1.console.sink.written.toList.drop m.console.sink.written.size
  | _, _ => []

/-- What the `out` instructions among so many steps write. -/
def utterances (m : Machine) (n : Nat) : List UInt8 := (List.range n).flatMap fun k => (m.after k).utterance

end Machine

namespace Comparison.Together
variable {c : Comparison} {m n : Machine}

theorem utterance (together : c.Together m n) : m.utterance = n.utterance := by
  obtain ⟨lines, more, -, abreast⟩ := together.abreast
  unfold Machine.utterance
  rw [← together.status, ← together.state]
  split
  · next source runs fetched =>
    have busy : m.state.atInput = false := by
      rw [State.atInput, fetched]
    obtain ⟨bytes, t, status, here, there⟩ := together.exists_write runs busy
    rw [here, there, Console.write_of_roomy abreast.reads.roomy, Console.write_of_roomy abreast.alsoReads.roomy]
    simp
  · rfl

theorem utterances (together : c.Together m n) (k : Nat) : m.utterances k = n.utterances k := by
  unfold Machine.utterances
  congr 1
  funext j
  exact (together.after j).utterance

end Comparison.Together

namespace Machine

theorem together_padded {m : Machine} {bytes more : List UInt8} (roomy : m.console.sink.room = none)
    (loadless : ∀ line ∈ linesOf bytes, Command.beginsWith "load" (Console.textOfLine line) = false)
    (padded : Padded Harmless bytes more) :
    (Comparison.besideHarmless m.console.slot m.console.prompt m.console.sink.written m.steps).Together
      (m.reading bytes) (m.reading more) where
  state := rfl
  status := rfl
  steps := ⟨0, rfl, rfl⟩
  abreast := by
    refine ⟨linesOf bytes, linesOf more, padded.interposed, ?_⟩
    exact {
      kept := loadless
      reads := ⟨⟨bytes, rfl, rfl⟩, roomy⟩
      alsoReads := ⟨⟨more, rfl, rfl⟩, roomy⟩
      pending := rfl
      slot := rfl
      alsoSlot := rfl
      prompt := rfl
      alsoPrompt := rfl
      alike := .inl rfl
      written := .start }

/-- Lines that save and `reg7` lines that are refused, put into an input that never loads,
    are not seen by the program. After every number of steps both machines have the same
    state, status, number of steps and pending words, and `out` has written the same; the
    outputs differ by prompts with the answers to such lines, and the disks at most where
    the slot leads. -/
theorem harmless_unseen {m : Machine} {bytes more : List UInt8} (roomy : m.console.sink.room = none)
    (loadless : ∀ line ∈ linesOf bytes, Command.beginsWith "load" (Console.textOfLine line) = false)
    (padded : Padded Harmless bytes more) (n : Nat) :
    let first := (m.reading bytes).after n
    let second := (m.reading more).after n
    first.state = second.state ∧ first.status = second.status ∧ first.steps = second.steps ∧
      first.console.pending = second.console.pending ∧
      (m.reading bytes).utterances n = (m.reading more).utterances n ∧
      Interspersed m.console.slot m.console.prompt Harmless m.console.sink.written m.console.sink.written
        first.console.sink.written second.console.sink.written ∧
      ∀ place, first.console.disk.locate m.console.slot ≠ .ok place →
        second.console.disk.get? place = first.console.disk.get? place := by
  intro first second
  have start := together_padded roomy loadless padded
  have together := start.after n
  obtain ⟨k, early, late⟩ := together.steps
  obtain ⟨lines, others, -, abreast⟩ := together.abreast
  have alike : Disk.AlikeBut m.console.slot first.console.disk second.console.disk := abreast.alike
  exact ⟨together.state, together.status, early.trans late.symm, together.pending, start.utterances n,
    abreast.written, fun place => alike.get?⟩

/-- A program that repeats what it reads, without and with a save before its only line. -/
theorem harmless_unseen_save :
    let m := new (.start (.padded [20, 32768, 19, 32768])) ⟨.ofBytes [], .new none, [], "save.json", ">>> ", .empty⟩ none
    let bytes := Console.bytesOfText "a\n"
    m.console.sink.room = none ∧
    (∀ line ∈ linesOf bytes, Command.beginsWith "load" (Console.textOfLine line) = false) ∧
    Padded Harmless bytes (saveLine ++ bytes) ∧
    ∀ n, ((m.reading bytes).after n).state = ((m.reading (saveLine ++ bytes)).after n).state ∧
      (m.reading bytes).utterances n = (m.reading (saveLine ++ bytes)).utterances n := by
  intro m bytes
  have loadless : ∀ line ∈ linesOf bytes, Command.beginsWith "load" (Console.textOfLine line) = false := by
    intro line member
    have only : linesOf bytes = [bytes] := by decide
    rw [only, List.mem_singleton] at member
    have text : chomp bytes = Utf8.encode "a".toList := rfl
    rw [member, Console.textOfLine, text, Utf8.decodeLossy_encode]
    rfl
  have saves : Harmless saveLine := by
    have text : chomp saveLine = Utf8.encode "save".toList := rfl
    refine .inl ?_
    rw [Console.textOfLine, text, Utf8.decodeLossy_encode]
    rfl
  have padded : Padded Harmless bytes (saveLine ++ bytes) :=
    @Padded.line Harmless bytes [] (Console.bytesOfText "save") bytes .none (by decide) (by decide) saves
  refine ⟨rfl, loadless, padded, fun n => ?_⟩
  obtain ⟨states, -, -, -, spoken, -, -⟩ := harmless_unseen (m := m) rfl loadless padded n
  exact ⟨states, spoken⟩

end Machine

end WordMachine
