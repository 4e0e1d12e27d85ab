import WordMachine.Console
import WordMachine.Proofs.Command.Grammar
import WordMachine.Proofs.Device.Lines
import WordMachine.Proofs.Text.Utf8

/-!
Turns at the prompt. `Effect` lists what a line can do: the words that it gives the
program, its answer, and the state and the disk after it. Every line has an effect
(`exists_effect`), and a console whose sink has no bound carries out just that, after
the prompt (`turn_of_line`).
-/
namespace WordMachine

/-- What a line does, from a state and a disk: words for the program, an answer, and
    the state and the disk after it. -/
inductive Effect (slot : String) (line : List Char) (s : State) (disk : Disk) :
    List Word → String → State → Disk → Prop
  | input {text : String} : Command.parse (String.ofList line) = .ok (.input text) →
      Effect slot line s disk (line.map Console.wordOfChar ++ [10]) "" s disk
  | saved {after : Disk} : Command.parse (String.ofList line) = .ok .save → Slot.save disk slot s = .ok after →
      Effect slot line s disk [] "Saved.\n\n" s after
  | notSaved {error : SlotError} : Command.parse (String.ofList line) = .ok .save →
      Slot.save disk slot s = .error error →
      Effect slot line s disk [] ("Save failed: " ++ error.message ++ "\n\n") s disk
  | loaded {t : State} : Command.parse (String.ofList line) = .ok .load → Slot.load disk slot = .ok t →
      Effect slot line s disk [] "Loaded.\n\n" t disk
  | notLoaded {error : SlotError} : Command.parse (String.ofList line) = .ok .load →
      Slot.load disk slot = .error error →
      Effect slot line s disk [] ("Load failed: " ++ error.message ++ "\n\n") s disk
  | registerSet {value : Word} : Command.parse (String.ofList line) = .ok (.setRegister7 value) →
      Effect slot line s disk [] (s!"Set register 7 to {value.toNat}" ++ "\n\n")
        { s with registers := s.registers.set 7 value (by decide) } disk
  | refused {error : CommandError} : Command.parse (String.ofList line) = .error error →
      Effect slot line s disk [] (error.message ++ "\n\n") s disk

theorem exists_effect (slot : String) (line : List Char) (s : State) (disk : Disk) :
    ∃ words answer t after, Effect slot line s disk words answer t after := by
  cases parsed : Command.parse (String.ofList line) with
  | error error => exact ⟨_, _, _, _, .refused parsed⟩
  | ok command =>
    cases command with
    | save =>
      cases saved : Slot.save disk slot s with
      | ok after => exact ⟨_, _, _, _, .saved parsed saved⟩
      | error error => exact ⟨_, _, _, _, .notSaved parsed saved⟩
    | load =>
      cases loaded : Slot.load disk slot with
      | ok t => exact ⟨_, _, _, _, .loaded parsed loaded⟩
      | error error => exact ⟨_, _, _, _, .notLoaded parsed loaded⟩
    | setRegister7 value => exact ⟨_, _, _, _, .registerSet parsed⟩
    | input text => exact ⟨_, _, _, _, .input parsed⟩

/-- The line that is a save and nothing else. -/
def saveLine : List UInt8 := Console.bytesOfText "save\n"

/-- The line that is a load and nothing else. -/
def loadLine : List UInt8 := Console.bytesOfText "load\n"

/-- A line that sets register 7. -/
def reg7Line : List UInt8 := Console.bytesOfText "reg7 5\n"

@[simp] theorem length_saveLine : saveLine.length = 5 := rfl

@[simp] theorem length_loadLine : loadLine.length = 5 := rfl

theorem effect_saveLine {slot : String} {s : State} {disk after : Disk} (saved : Slot.save disk slot s = .ok after) :
    Effect slot (Utf8.decodeLossy (chomp saveLine)) s disk [] "Saved.\n\n" s after := by
  have text : chomp saveLine = Utf8.encode "save".toList := rfl
  rw [text, Utf8.decodeLossy_encode]
  exact .saved rfl saved

theorem effect_loadLine {slot : String} {s t : State} {disk : Disk} (loaded : Slot.load disk slot = .ok t) :
    Effect slot (Utf8.decodeLossy (chomp loadLine)) s disk [] "Loaded.\n\n" t disk := by
  have text : chomp loadLine = Utf8.encode "load".toList := rfl
  rw [text, Utf8.decodeLossy_encode]
  exact .loaded rfl loaded

theorem effect_reg7Line (slot : String) (s : State) (disk : Disk) :
    Effect slot (Utf8.decodeLossy (chomp reg7Line)) s disk [] (s!"Set register 7 to {(5 : Word).toNat}" ++ "\n\n")
      { s with registers := s.registers.set 7 5 (by decide) } disk := by
  have text : chomp reg7Line = Utf8.encode "reg7 5".toList := rfl
  rw [text, Utf8.decodeLossy_encode]
  exact .registerSet rfl

theorem Sink.append_append (written : Array UInt8) (first second : List UInt8) :
    written ++ (first ++ second) = written ++ first ++ second :=
  Array.ext' (by simp)

theorem Sink.append_assoc (said written : Array UInt8) (bytes : List UInt8) :
    said ++ written ++ bytes = said ++ (written ++ bytes) :=
  Array.ext' (by simp)

theorem Sink.write_of_room_eq_none {sink : Sink} (roomy : sink.room = none) (bytes : List UInt8) :
    sink.write bytes = (⟨sink.written ++ bytes, none⟩, none) := by
  obtain ⟨written, room⟩ := sink
  cases roomy
  rfl

namespace Console

theorem write_nil (console : Console) : console.write [] = (console, none) := by
  obtain ⟨source, sink, pending, slot, prompt, disk⟩ := console
  simp only [write, Sink.write_nil]

/-- An answer is written as it stands, and an empty one is none. -/
theorem respond_of_effect {console : Console} {line : List Char} {s t : State} {words : List Word} {answer : String}
    {after : Disk} (effect : Effect console.slot line s console.disk words answer t after) :
    ∃ reply, console.respond s (String.ofList line)
        = ({ console with pending := console.pending ++ words, disk := after }, t, reply) ∧
      ∀ other : Console, other.answer reply = other.write (bytesOfText answer) := by
  unfold respond
  cases effect with
  | input parsed =>
    cases Command.eq_of_parse_input parsed
    refine ⟨none, ?_, ?_⟩
    · simp only [parsed, queueLine, wordsOfLine, String.toList_ofList, List.map_append]
      rfl
    · intro other
      exact (write_nil other).symm
  | saved parsed saved =>
    refine ⟨some "Saved.", ?_, fun other => rfl⟩
    simp only [parsed, saved, List.append_nil]
  | @notSaved error parsed failed =>
    refine ⟨some ("Save failed: " ++ error.message), ?_, fun other => rfl⟩
    simp only [parsed, failed, List.append_nil]
  | loaded parsed loaded =>
    refine ⟨some "Loaded.", ?_, fun other => rfl⟩
    simp only [parsed, loaded, List.append_nil]
  | @notLoaded error parsed failed =>
    refine ⟨some ("Load failed: " ++ error.message), ?_, fun other => rfl⟩
    simp only [parsed, failed, List.append_nil]
  | @registerSet value parsed =>
    refine ⟨some s!"Set register 7 to {value.toNat}", ?_, fun other => rfl⟩
    simp only [parsed, List.append_nil]
  | @refused error parsed =>
    refine ⟨some error.message, ?_, fun other => rfl⟩
    simp only [parsed, List.append_nil]

theorem write_of_roomy {console : Console} (roomy : console.sink.room = none) (bytes : List UInt8) :
    console.write bytes = ({ console with sink := ⟨console.sink.written ++ bytes, none⟩ }, none) := by
  obtain ⟨source, sink, pending, slot, prompt, disk⟩ := console
  simp only [write, Sink.write_of_room_eq_none roomy]

/-- A turn at a line: unless one of the writes fails, the prompt is written, the line has its
    effect, and the answer is written. -/
theorem turn_of_effect {console : Console} {s t : State} {line : List UInt8} {rest : Source} {words : List Word}
    {answer : String} {after : Disk} (read : console.source.readLine = (.line line, rest))
    (effect : Effect console.slot (Utf8.decodeLossy (chomp line)) s console.disk words answer t after) :
    console.turn s
      = match console.write (bytesOfText console.prompt) with
        | (asked, some error) => (some (.failed error), asked, s)
        | (asked, none) =>
          match write ⟨rest, asked.sink, console.pending ++ words, console.slot, console.prompt, after⟩
              (bytesOfText answer) with
          | (answered, some error) => (some (.failed error), answered, t)
          | (answered, none) => (none, answered, t) := by
  obtain ⟨source, sink, pending, slot, prompt, disk⟩ := console
  simp only at read effect ⊢
  simp only [turn, write]
  rcases sink.write (bytesOfText prompt) with ⟨full, _ | error⟩
  · obtain ⟨reply, responds, answers⟩ := @respond_of_effect ⟨rest, full, pending, slot, prompt, disk⟩ _ _ _ _ _ _ effect
    simp only at responds
    rcases answered : full.write (bytesOfText answer) with ⟨told, _ | error⟩
    · simp only [read, textOfLine, responds, answers, write, answered]
    · simp only [read, textOfLine, responds, answers, write, answered]
  · rfl

/-- A turn at a line on a sink without a bound. -/
theorem turn_of_line {console : Console} {s t : State} {line : List UInt8} {rest : Source} {words : List Word}
    {answer : String} {after : Disk} (roomy : console.sink.room = none)
    (read : console.source.readLine = (.line line, rest))
    (effect : Effect console.slot (Utf8.decodeLossy (chomp line)) s console.disk words answer t after) :
    console.turn s
      = (none, ⟨rest, ⟨console.sink.written ++ bytesOfText console.prompt ++ bytesOfText answer, none⟩,
          console.pending ++ words, console.slot, console.prompt, after⟩, t) := by
  obtain ⟨source, ⟨written, room⟩, pending, slot, prompt, disk⟩ := console
  cases roomy
  rw [turn_of_effect read effect]
  simp only [write, Sink.write]

/-- What a turn comes to that gets no line. -/
def refusal : Reading → Option Delivery
  | .line _ => none
  | .closed => some .closed
  | .failed error => some (.failed error)

/-- A turn that gets no line: only the prompt is written. -/
theorem turn_of_refusal {console : Console} {reading : Reading} {rest : Source} {delivery : Delivery}
    (read : console.source.readLine = (reading, rest)) (refused : refusal reading = some delivery) (s : State) :
    console.turn s
      = match console.write (bytesOfText console.prompt) with
        | (asked, some error) => (some (.failed error), asked, s)
        | (asked, none) => (some delivery, { asked with source := rest }, s) := by
  obtain ⟨source, sink, pending, slot, prompt, disk⟩ := console
  simp only at read
  simp only [turn, write]
  rcases sink.write (bytesOfText prompt) with ⟨full, _ | error⟩
  · rcases reading with line | _ | error <;> cases refused <;> simp only [read]
  · rfl

/-- A turn that gets no line on a sink without a bound. -/
theorem turn_of_refused {console : Console} {reading : Reading} {rest : Source} {delivery : Delivery}
    (roomy : console.sink.room = none) (read : console.source.readLine = (reading, rest))
    (refused : refusal reading = some delivery) (s : State) :
    console.turn s
      = (some delivery, { console with
          source := rest, sink := ⟨console.sink.written ++ bytesOfText console.prompt, none⟩ }, s) := by
  rw [turn_of_refusal read refused, write_of_roomy roomy]

/-- A turn at the end of the input: only the prompt is written. -/
theorem turn_of_closed {console : Console} {rest : Source} (roomy : console.sink.room = none)
    (read : console.source.readLine = (.closed, rest)) (s : State) :
    console.turn s
      = (some .closed, { console with
          source := rest, sink := ⟨console.sink.written ++ bytesOfText console.prompt, none⟩ }, s) :=
  turn_of_refused roomy read rfl s

/-- A turn on devices that do not fail finds the end of the input, or obeys its first
    line. -/
theorem turn_of_unread {console : Console} {bytes : List UInt8} (roomy : console.sink.room = none)
    (unread : console.source = .ofBytes bytes) (s : State) :
    bytes = [] ∧ console.turn s
        = (some .closed, { console with sink := ⟨console.sink.written ++ bytesOfText console.prompt, none⟩ }, s) ∨
      ∃ line later words answer t after, linesOf bytes = line :: later ∧
        Effect console.slot (Utf8.decodeLossy (chomp line)) s console.disk words answer t after ∧
        console.turn s
          = (none, ⟨.ofBytes later.flatten,
              ⟨console.sink.written ++ bytesOfText console.prompt ++ bytesOfText answer, none⟩,
              console.pending ++ words, console.slot, console.prompt, after⟩, t) := by
  have read := Source.readLine_ofBytes bytes
  rw [← unread] at read
  cases cut : linesOf bytes with
  | nil =>
    cases linesOf_eq_nil_iff.mp cut
    rw [cut] at read
    have turned := turn_of_closed roomy read s
    rw [← unread] at turned
    exact .inl ⟨rfl, turned⟩
  | cons line later =>
    rw [cut] at read
    obtain ⟨words, answer, t, after, effect⟩ :=
      exists_effect console.slot (Utf8.decodeLossy (chomp line)) s console.disk
    exact .inr ⟨line, later, words, answer, t, after, rfl, effect, turn_of_line roomy read effect⟩

/-- With nothing pending and nothing left to read, a request writes the prompt and is
    closed. -/
theorem nextInput_of_end {console : Console} (roomy : console.sink.room = none) (empty : console.pending = [])
    (unread : console.source = .ofBytes []) (s : State) :
    console.nextInput s
      = (.closed, { console with sink := ⟨console.sink.written ++ bytesOfText console.prompt, none⟩ }, s) := by
  have closes : console.source.readLine = (.closed, console.source) := by
    rw [unread]
    rfl
  exact nextInput_of_turn_some empty (turn_of_closed roomy closes s)

/-! ### Turns with any devices -/

theorem exists_write (console : Console) (bytes : List UInt8) :
    ∃ full failure, console.write bytes = ({ console with sink := full }, failure) :=
  ⟨_, _, rfl⟩

theorem exists_answer (console : Console) (reply : Option String) :
    ∃ full failure, console.answer reply = ({ console with sink := full }, failure) := by
  cases reply with
  | none => exact ⟨console.sink, none, rfl⟩
  | some reply => exact exists_write console _

/-- All that a turn can do, whatever the devices do. It comes to nothing if it cannot
    ask or gets no line; otherwise the line has its effect, also if the answer cannot be
    written. -/
theorem turn_cases {console after : Console} {s t : State} {outcome : Option Delivery}
    (turned : console.turn s = (outcome, after, t)) :
    after.slot = console.slot ∧ after.prompt = console.prompt ∧
      ((after.source = console.source ∨ after.source = console.source.readLine.2) ∧
          after.pending = console.pending ∧ after.disk = console.disk ∧ t = s ∧ outcome ≠ none ∨
        ∃ line words answer, console.source.readLine.1 = .line line ∧ after.source = console.source.readLine.2 ∧
          after.pending = console.pending ++ words ∧
          Effect console.slot (Utf8.decodeLossy (chomp line)) s console.disk words answer t after.disk) := by
  obtain ⟨asked, failure, written⟩ := exists_write console (bytesOfText console.prompt)
  rw [turn, written] at turned
  cases failure with
  | some error =>
    cases turned
    exact ⟨rfl, rfl, .inl ⟨.inl rfl, rfl, rfl, rfl, nofun⟩⟩
  | none =>
    rcases read : console.source.readLine with ⟨line | _ | error, rest⟩
    · simp only [read] at turned
      obtain ⟨words, said, u, disk, effect⟩ :=
        exists_effect console.slot (Utf8.decodeLossy (chomp line)) s console.disk
      let reads : Console := { console with source := rest, sink := asked }
      have heard : Effect reads.slot (Utf8.decodeLossy (chomp line)) s reads.disk words said u disk := effect
      obtain ⟨reply, responds, -⟩ := respond_of_effect heard
      obtain ⟨full, failure, answers⟩ :=
        exists_answer { reads with pending := reads.pending ++ words, disk := disk } reply
      simp only [textOfLine, reads] at turned responds answers
      rw [responds] at turned
      simp only at turned
      rw [answers] at turned
      cases failure with
      | none =>
        cases turned
        exact ⟨rfl, rfl, .inr ⟨line, words, said, rfl, rfl, rfl, effect⟩⟩
      | some error =>
        cases turned
        exact ⟨rfl, rfl, .inr ⟨line, words, said, rfl, rfl, rfl, effect⟩⟩
    · simp only [read] at turned
      cases turned
      exact ⟨rfl, rfl, .inl ⟨.inr rfl, rfl, rfl, rfl, nofun⟩⟩
    · simp only [read] at turned
      cases turned
      exact ⟨rfl, rfl, .inl ⟨.inr rfl, rfl, rfl, rfl, nofun⟩⟩

theorem length_source_turn_le {console after : Console} {s t : State} {outcome : Option Delivery}
    (turned : console.turn s = (outcome, after, t)) :
    after.source.signals.length ≤ console.source.signals.length := by
  have less := Source.length_lineAfter_le [] console.source.signals
  obtain ⟨-, -, ⟨kept | read, -⟩ | ⟨line, words, answer, -, read, -⟩⟩ := turn_cases turned
  · exact Nat.le_of_eq (by rw [kept])
  · rw [read]
    exact less
  · rw [read]
    exact less

/-- What every turn hands back to the request that it is part of holds of the request. -/
theorem nextInput_induction {P : Console → State → Delivery × Console × State → Prop}
    (word : ∀ console s word rest, console.pending = word :: rest →
      P console s (.word word, { console with pending := rest }, s))
    (ends : ∀ console s delivery after t, console.pending = [] → console.turn s = (some delivery, after, t) →
      P console s (delivery, after, t))
    (again : ∀ console s after t came, console.pending = [] → console.turn s = (none, after, t) →
      P after t came → P console s came)
    (console : Console) (s : State) : P console s (console.nextInput s) := by
  cases waiting : console.pending with
  | cons first rest =>
    rw [nextInput_of_pending waiting]
    exact word console s first rest waiting
  | nil =>
    rcases turned : console.turn s with ⟨_ | delivery, after, t⟩
    · rw [nextInput_of_turn_none waiting turned]
      have shorter := length_source_turn_lt turned
      exact again console s after t _ waiting turned (nextInput_induction word ends again after t)
    · rw [nextInput_of_turn_some waiting turned]
      exact ends console s delivery after t waiting turned
termination_by console.source.signals.length

end Console

end WordMachine
