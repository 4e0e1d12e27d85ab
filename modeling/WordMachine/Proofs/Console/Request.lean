import WordMachine.Proofs.Console.Capacity
import WordMachine.Proofs.Console.Queue

/-!
Requests for input with any devices. A turn asks, reads, obeys and answers, and may end after
each of these (`Console.turned_turn`). So a request gives a word that was pending, or it obeys
command after command, each of which has its effect also if it is the last and its answer
cannot be written, and then ends with a line of input, the end of the input or a failure
(`Console.request_nextInput`).
-/
namespace WordMachine.Console

/-- All that a turn can come to, with the state that it loads. -/
inductive Turned (console : Console) (s : State) : Option State → Option Delivery × Console × State → Prop
  | unasked {sink : Sink} : console.said <+: sink.written.toList → sink.room = some 0 →
      Turned console s none (some (.failed .outputFull), { console with sink := sink }, s)
  | refused {sink : Sink} {reading : Reading} {rest : Source} {delivery : Delivery} :
      console.said <+: sink.written.toList → console.source.readLine = (reading, rest) →
      refusal reading = some delivery →
      Turned console s none (some delivery, { console with source := rest, sink := sink }, s)
  | unanswered {sink : Sink} {line : List UInt8} {rest : Source} {answer : String} {t : State} {disk : Disk} :
      console.said <+: sink.written.toList → sink.room = some 0 → console.source.readLine = (.line line, rest) →
      Effect console.slot (Utf8.decodeLossy (chomp line)) s console.disk [] answer t disk →
      Turned console s (console.loadedBy (textOfLine line))
        (some (.failed .outputFull), { console with source := rest, sink := sink, disk := disk }, t)
  | obeyed {sink : Sink} {line : List UInt8} {rest : Source} {words : List Word} {answer : String} {t : State}
      {disk : Disk} : console.said <+: sink.written.toList → console.source.readLine = (.line line, rest) →
      Effect console.slot (Utf8.decodeLossy (chomp line)) s console.disk words answer t disk →
      Turned console s (console.loadedBy (textOfLine line))
        (none, ⟨rest, sink, console.pending ++ words, console.slot, console.prompt, disk⟩, t)

/-- The first console comes to the second by asking for command lines and obeying them. The
    lines are given, and the states that they load. -/
inductive Obeys : Console → State → List (List UInt8) → List State → Console → State → Prop
  | none {console : Console} {s : State} {sink : Sink} : console.said <+: sink.written.toList →
      Obeys console s [] [] { console with sink := sink } s
  | line {console last : Console} {s t u : State} {sink : Sink} {line : List UInt8} {rest : Source} {answer : String}
      {disk : Disk} {lines : List (List UInt8)} {loaded : List State} : console.said <+: sink.written.toList →
      console.source.readLine = (.line line, rest) →
      Effect console.slot (Utf8.decodeLossy (chomp line)) s console.disk [] answer t disk →
      Obeys { console with source := rest, sink := sink, disk := disk } t lines loaded last u →
      Obeys console s (line :: lines) ((console.loadedBy (textOfLine line)).toList ++ loaded) last u

/-- How a request ends after the last command. -/
inductive Ends (console : Console) : Delivery → Console → Prop
  /-- A line of input was read, and its first word is given. -/
  | word {line : List UInt8} {rest : Source} {text : String} {word : Word} {words : List Word} :
      console.source.readLine = (.line line, rest) → Command.parse (textOfLine line) = .ok (.input text) →
      wordsOfLine (textOfLine line).toList = word :: words →
      Ends console (.word word) { console with source := rest, pending := words }
  | closed {rest : Source} : console.source.readLine = (.closed, rest) →
      Ends console .closed { console with source := rest }
  | unread {rest : Source} {error : DeviceError} : console.source.readLine = (.failed error, rest) →
      Ends console (.failed error) { console with source := rest }
  /-- There is no more room for the prompt, or for the answer to the last command. -/
  | unwritten : console.sink.room = some 0 → Ends console (.failed .outputFull) console

/-- What a request comes to, with the command lines that it reads and the states that it
    loads. -/
inductive Request (console : Console) (s : State) : List (List UInt8) → List State → Delivery × Console × State → Prop
  | pending {word : Word} {rest : List Word} : console.pending = word :: rest →
      Request console s [] [] (.word word, { console with pending := rest }, s)
  | asked {lines : List (List UInt8)} {loaded : List State} {last after : Console} {t : State} {delivery : Delivery} :
      console.pending = [] → Obeys console s lines loaded last t → Ends last delivery after →
      Request console s lines loaded (delivery, after, t)

variable {console after last : Console} {s t : State} {lines : List (List UInt8)} {loaded : List State}
  {delivery : Delivery}

/-! ### Turns -/

theorem turned_turn (console : Console) (s : State) : console.Turned s console.loadedInTurn (console.turn s) := by
  have asks := console.said_prefix_write (bytesOfText console.prompt)
  obtain ⟨asked, failure, written⟩ := exists_write console (bytesOfText console.prompt)
  rw [written] at asks
  rcases read : console.source.readLine with ⟨reading, rest⟩
  cases refused : refusal reading with
  | some delivery =>
    have loadsNone : console.loadedInTurn = none := by
      rw [loadedInTurn, read]
      cases reading with
      | line line => cases refused
      | closed | failed => split <;> simp_all
    rw [loadsNone, turn_of_refusal read refused, written]
    cases failure with
    | some error =>
      obtain ⟨rfl, full⟩ := full_of_write_failed written
      exact .unasked asks full
    | none => exact .refused asks read refused
  | none =>
    obtain ⟨line, rfl⟩ : ∃ line, reading = .line line := by
      cases reading with
      | line line => exact ⟨line, rfl⟩
      | closed | failed => cases refused
    obtain ⟨words, answer, t, disk, effect⟩ :=
      exists_effect console.slot (Utf8.decodeLossy (chomp line)) s console.disk
    rw [turn_of_effect read effect, written, loadedInTurn, written, read]
    cases failure with
    | some error =>
      obtain ⟨rfl, full⟩ := full_of_write_failed written
      exact .unasked asks full
    | none =>
      let obeyed : Console := ⟨rest, asked, console.pending ++ words, console.slot, console.prompt, disk⟩
      have answers := obeyed.said_prefix_write (bytesOfText answer)
      obtain ⟨told, failure, answered⟩ := exists_write obeyed (bytesOfText answer)
      rw [answered] at answers
      have grown := asks.trans answers
      cases failure with
      | none =>
        simp only [obeyed] at answered
        simp only [answered]
        exact .obeyed grown read effect
      | some error =>
        rcases words_of_effect effect with rfl | ⟨-, rfl, -⟩
        · obtain ⟨rfl, full⟩ := full_of_write_failed answered
          simp only [obeyed, List.append_nil] at answered
          simp only [answered, List.append_nil]
          exact .unanswered grown full read effect
        · -- An empty answer does not fail.
          rw [show bytesOfText "" = [] from rfl, write_nil] at answered
          simp at answered

/-! ### Commands -/

/-- Only `reg7` sets a register, and only the last. -/
theorem registers_of_effect {line : List Char} {words : List Word} {answer : String} {disk : Disk}
    (effect : Effect console.slot line s console.disk words answer t disk) {k : Nat} (inside : k < 8)
    (changed : t.registers[k] ≠ ((console.loadedBy (String.ofList line)).getD s).registers[k]) :
    k = 7 ∧ ∃ value, Command.parse (String.ofList line) = .ok (.setRegister7 value) := by
  unfold loadedBy at changed
  cases effect with
  | loaded parsed loaded => simp [parsed, loaded, Except.toOption] at changed
  | notLoaded parsed failed => simp [parsed, failed, Except.toOption] at changed
  | input parsed | saved parsed _ | notSaved parsed _ | refused parsed => simp [parsed] at changed
  | registerSet parsed =>
    rw [parsed] at changed
    exact ⟨Registers.eq_of_getElem_set_ne (by decide) changed, _, parsed⟩

namespace Obeys

theorem said (obeys : Obeys console s lines loaded last t) : console.said <+: last.said := by
  induction obeys with
  | none grown => exact grown
  | line grown _ _ _ ih => exact grown.trans ih

/-- Commands queue nothing, and change neither the path of the slot nor the prompt. -/
theorem keeps (obeys : Obeys console s lines loaded last t) :
    last.pending = console.pending ∧ last.slot = console.slot ∧ last.prompt = console.prompt := by
  induction obeys with
  | none _ => exact ⟨rfl, rfl, rfl⟩
  | line _ _ _ _ ih => exact ih

/-- What commands load last keeps its registers but for the last, and that too unless one of
    them is a `reg7`. -/
theorem registers (obeys : Obeys console s lines loaded last t) {k : Nat} (inside : k < 8)
    (changed : t.registers[k] ≠ (loaded.getLast?.getD s).registers[k]) :
    k = 7 ∧ ∃ line ∈ lines, ∃ value, Command.parse (textOfLine line) = .ok (.setRegister7 value) := by
  induction obeys with
  | none _ => exact absurd rfl changed
  | @line console last s u t sink line rest answer disk lines loaded grown read effect obeys ih =>
    have begins : ((console.loadedBy (textOfLine line)).toList ++ loaded).getLast?.getD s
        = loaded.getLast?.getD ((console.loadedBy (textOfLine line)).getD s) := by
      rw [List.getLast?_append]
      cases loaded.getLast? <;> cases console.loadedBy (textOfLine line) <;> rfl
    rw [begins] at changed
    by_cases same : u.registers[k] = ((console.loadedBy (textOfLine line)).getD s).registers[k]
    · have later : t.registers[k] ≠ (loaded.getLast?.getD u).registers[k] := by
        cases last : loaded.getLast? with
        | none =>
          rw [last] at changed
          exact same ▸ changed
        | some v =>
          rw [last] at changed
          exact changed
      obtain ⟨is7, line, among, sets⟩ := ih later
      exact ⟨is7, line, .tail _ among, sets⟩
    · obtain ⟨is7, sets⟩ := registers_of_effect effect inside same
      exact ⟨is7, line, .head _, sets⟩

end Obeys

/-- What ends a request changes neither the disk nor what was written. -/
theorem Ends.keeps (ends : last.Ends delivery after) :
    after.disk = last.disk ∧ after.sink = last.sink ∧ after.slot = last.slot ∧ after.prompt = last.prompt := by
  cases ends <;> exact ⟨rfl, rfl, rfl, rfl⟩

/-! ### Requests -/

/-- A turn that ends the request has read one command at most. -/
theorem Turned.ends {load : Option State} (turns : console.Turned s load (some delivery, after, t))
    (empty : console.pending = []) : ∃ lines, console.Request s lines load.toList (delivery, after, t) := by
  cases turns with
  | unasked grown full => exact ⟨[], .asked empty (.none grown) (.unwritten full)⟩
  | @refused sink reading rest _ grown read refused =>
    refine ⟨[], .asked empty (.none grown) ?_⟩
    cases reading with
    | line line => cases refused
    | closed =>
      cases refused
      exact .closed read
    | failed error =>
      cases refused
      exact .unread read
  | unanswered grown full read effect =>
    have obeys := Obeys.line grown read effect (.none List.prefix_rfl)
    rw [List.append_nil] at obeys
    exact ⟨[_], .asked empty obeys (.unwritten full)⟩

/-- A turn after which the queue is looked at again has read a command, or the line of input
    of which a word is given next. -/
theorem Turned.again {load : Option State} {came : Delivery × Console × State}
    (turns : console.Turned s load (none, after, t)) (empty : console.pending = [])
    (request : after.Request t lines loaded came) : ∃ lines, console.Request s lines (load.toList ++ loaded) came := by
  cases turns with
  | @obeyed sink line rest words answer _ disk grown read effect =>
    rcases words_of_effect effect with rfl | ⟨rfl, rfl, rfl, rfl, text, parsed⟩
    · cases request with
      | pending waiting => simp [empty] at waiting
      | asked _ obeys ends =>
        simp only [List.append_nil] at obeys
        exact ⟨_, .asked empty (.line grown read effect obeys) ends⟩
    · have loadsNone : console.loadedBy (textOfLine line) = none := by
        rw [loadedBy, textOfLine, parsed]
      cases request with
      | pending waiting =>
        rw [empty, List.nil_append] at waiting
        rw [loadsNone]
        refine ⟨[], .asked empty (.none grown) (.word read parsed ?_)⟩
        rw [textOfLine, String.toList_ofList]
        exact waiting
      | asked none => simp [empty, wordsOfLine] at none

/-- What a request comes to, with the commands that it reads. -/
theorem request_nextInput (console : Console) (s : State) :
    ∃ lines, console.Request s lines (console.loads s) (console.nextInput s) := by
  refine nextInput_induction (P := fun console s came => ∃ lines, console.Request s lines (console.loads s) came)
    ?_ ?_ ?_ console s
  · intro console s word rest waiting
    rw [loads_of_pending waiting]
    exact ⟨[], .pending waiting⟩
  · intro console s delivery after t empty turned
    have turns := console.turned_turn s
    rw [turned] at turns
    rw [loads_of_turn_some empty turned]
    exact turns.ends empty
  · intro console s after t came empty turned ⟨lines, request⟩
    have turns := console.turned_turn s
    rw [turned] at turns
    rw [loads_of_turn_none empty turned]
    exact turns.again empty request

theorem Request.said {came : Delivery × Console × State} (request : console.Request s lines loaded came) :
    console.said <+: came.2.1.said := by
  cases request with
  | pending _ => exact List.prefix_rfl
  | asked _ obeys ends =>
    rw [Console.said, Console.said, ends.keeps.2.1]
    exact obeys.said

theorem Request.registers {came : Delivery × Console × State} (request : console.Request s lines loaded came) {k : Nat}
    (inside : k < 8) (changed : came.2.2.registers[k] ≠ (loaded.getLast?.getD s).registers[k]) :
    k = 7 ∧ ∃ line ∈ lines, ∃ value, Command.parse (textOfLine line) = .ok (.setRegister7 value) := by
  cases request with
  | pending _ => exact absurd rfl changed
  | asked _ obeys _ => exact obeys.registers inside changed

/-- A request that fails leaves nothing pending. -/
theorem Request.failed {error : DeviceError} (request : console.Request s lines loaded (.failed error, after, t)) :
    console.pending = [] ∧ after.pending = [] ∧ after.slot = console.slot ∧
      ∃ last, console.Obeys s lines loaded last t ∧ last.Ends (.failed error) after := by
  cases request with
  | @asked _ _ last _ _ _ empty obeys ends =>
    obtain ⟨pending, slot, -⟩ := obeys.keeps
    refine ⟨empty, ?_, ?_, last, obeys, ends⟩
    · cases ends <;> exact pending.trans empty
    · rw [ends.keeps.2.2.1, slot]

end WordMachine.Console
