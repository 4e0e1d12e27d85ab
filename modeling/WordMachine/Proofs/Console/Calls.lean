import WordMachine.Proofs.Console.Capacity
import WordMachine.Proofs.Console.Queue

/-!
Calls on a console in any order. A driver queues texts and asks for words, and a request may
read lines of its own (`Console.Event`, `Console.History`). Both put whole lines at the end of
one queue, and words leave it at the front only, so what has been given and what is pending
are together what was put in, in that order (`Console.first_in_first_out`). Only lines that
are read act as commands.
-/
namespace WordMachine.Console

/-- The numbers of a line in the queue, with the newline that ends it. -/
def numbers (line : List Char) : List Nat := line.map number ++ ['\n'.toNat]

/-- The text of a line of the source, if it is input and no command. -/
def inputText? (line : List UInt8) : Option (List Char) :=
  match Command.parse (textOfLine line) with
  | .ok (.input text) => some text.toList
  | _ => none

/-- The word that was given, if one was. -/
def given? : Delivery → Option Word
  | .word word => some word
  | _ => none

/-- What a driver asks of a console. -/
inductive Call
  | queue (text : String)
  | ask (s : State)

/-- A call and what came of it. -/
inductive Event
  | queued (text : String)
  /-- A word was asked for with a state. The lines were read, and the second state is left. -/
  | asked (s : State) (read : List (List UInt8)) (delivery : Delivery) (t : State)

namespace Event

def call : Event → Call
  | queued text => .queue text
  | asked s _ _ _ => .ask s

/-- The lines that a call puts into the queue: a text as it stands, whatever it begins with or
    has in it, and of lines that are read those that are input. -/
def lines : Event → List (List Char)
  | queued text => [text.toList]
  | asked _ read _ _ => read.filterMap inputText?

def word? : Event → Option Word
  | queued _ => none
  | asked _ _ delivery _ => given? delivery

end Event

/-- The first console comes to the second by calls. The lines that a request reads are those
    that it takes off the source. -/
inductive History : Console → List Event → Console → Prop
  | start {console : Console} : History console [] console
  | queued {console last : Console} {text : String} {events : List Event} :
      History (console.queueLine text) events last → History console (.queued text :: events) last
  | asked {console next last : Console} {s t : State} {delivery : Delivery} {read : List (List UInt8)}
      {events : List Event} : console.nextInput s = (delivery, next, t) →
      linesOf console.source.unread = read ++ linesOf next.source.unread → History next events last →
      History console (.asked s read delivery t :: events) last

/-- Lines obeyed one after the other, from a state and a disk, with what is written: before
    each there is a prompt, and one more if the input is at its end. -/
inductive Obeyed (slot prompt : String) (delivery : Delivery) :
    List (List UInt8) → State → Disk → List UInt8 → State → Disk → Prop
  | done {s : State} {disk : Disk} :
      Obeyed slot prompt delivery [] s disk (if delivery = .closed then bytesOfText prompt else []) s disk
  | line {line : List UInt8} {lines : List (List UInt8)} {s t u : State} {disk after final : Disk} {words : List Word}
      {answer : String} {written : List UInt8} :
      Effect slot (Utf8.decodeLossy (chomp line)) s disk words answer t after →
      Obeyed slot prompt delivery lines t after written u final →
      Obeyed slot prompt delivery (line :: lines) s disk (bytesOfText prompt ++ bytesOfText answer ++ written) u final

/-- What calls make of a disk and of the states that words are asked for with, and what they
    write. A request does what the lines say that it reads, and a text that is queued says
    nothing. -/
inductive Acted (slot prompt : String) : List Event → Disk → List UInt8 → Disk → Prop
  | done {disk : Disk} : Acted slot prompt [] disk [] disk
  | queued {text : String} {events : List Event} {disk final : Disk} {written : List UInt8} :
      Acted slot prompt events disk written final → Acted slot prompt (.queued text :: events) disk written final
  | asked {s t : State} {read : List (List UInt8)} {delivery : Delivery} {events : List Event}
      {disk after final : Disk} {written later : List UInt8} :
      Obeyed slot prompt delivery read s disk written t after → Acted slot prompt events after later final →
      Acted slot prompt (.asked s read delivery t :: events) disk (written ++ later) final

/-- What was put into the queue of a console, as numbers: what was pending at first, and then the
    lines of the calls in the order of the calls. -/
def put (console : Console) (events : List Event) : List Nat :=
  console.pending.map UInt16.toNat ++ (events.flatMap Event.lines).flatMap numbers

/-- What is true of a history on devices that do not fail. -/
structure InOrder (console : Console) (events : List Event) (last : Console) : Prop where
  /-- Words that were given, and then words that are pending, are what was put in. -/
  words : (events.filterMap Event.word? ++ last.pending).map UInt16.toNat = console.put events
  answered : ∀ s read error t, Event.asked s read (.failed error) t ∉ events
  acted : ∃ written, Acted console.slot console.prompt events console.disk written last.disk ∧
    last.said = console.said ++ written

/-! ### Words of a line -/

theorem map_toNat_wordsOfLine (line : List Char) : (wordsOfLine line).map UInt16.toNat = numbers line := by
  have each : UInt16.toNat ∘ wordOfChar = number := funext toNat_wordOfChar
  rw [wordsOfLine, List.map_append, List.map_append, List.map_map, each]
  rfl

theorem map_toNat_flatMap_wordsOfLine (lines : List (List Char)) :
    (lines.flatMap wordsOfLine).map UInt16.toNat = lines.flatMap numbers := by
  rw [List.map_flatMap]
  exact congrArg lines.flatMap (funext map_toNat_wordsOfLine)

/-- A line gives its words if it is input, and none otherwise. -/
theorem words_eq_of_effect {slot answer : String} {line : List UInt8} {s t : State} {disk after : Disk} {words : List Word}
    (effect : Effect slot (Utf8.decodeLossy (chomp line)) s disk words answer t after) :
    words = (inputText? line).toList.flatMap wordsOfLine := by
  unfold inputText? textOfLine
  cases effect with
  | input parsed =>
    rw [parsed, Command.eq_of_parse_input parsed]
    simp only [String.toList_ofList, Option.toList_some, List.flatMap_singleton, wordsOfLine, List.map_append]
    rfl
  | saved parsed _ | notSaved parsed _ | loaded parsed _ | notLoaded parsed _ | registerSet parsed | refused parsed =>
    rw [parsed]
    rfl

/-! ### Requests -/

/-- What came of a request: the lines that were read, the bytes that are left, and what was
    written. -/
structure Asked (console : Console) (bytes : List UInt8) (s : State) (came : Delivery × Console × State)
    (read : List (List UInt8)) (rest written : List UInt8) : Prop where
  lines : linesOf bytes = read ++ linesOf rest
  source : came.2.1.source = .ofBytes rest
  roomy : came.2.1.sink.room = none
  slot : came.2.1.slot = console.slot
  prompt : came.2.1.prompt = console.prompt
  said : came.2.1.said = console.said ++ written
  obeyed : Obeyed console.slot console.prompt came.1 read s console.disk written came.2.2 came.2.1.disk
  words : (given? came.1).toList ++ came.2.1.pending
    = console.pending ++ (read.filterMap inputText?).flatMap wordsOfLine
  answered : ∀ error, came.1 ≠ .failed error

variable {console next last : Console} {bytes : List UInt8} {s t : State} {events : List Event}

/-- On devices that do not fail, a request gives what is pending, or obeys lines until there is
    something to give or nothing to read. -/
theorem exists_asked (console : Console) (s : State) : console.sink.room = none → ∀ bytes,
    console.source = .ofBytes bytes → ∃ read rest written, Asked console bytes s (console.nextInput s) read rest written := by
  refine nextInput_induction (P := fun console s came => console.sink.room = none → ∀ bytes,
    console.source = .ofBytes bytes → ∃ read rest written, Asked console bytes s came read rest written) ?_ ?_ ?_ console s
  · intro console s word rest waiting roomy bytes unread
    refine ⟨[], bytes, [], rfl, unread, roomy, rfl, rfl, (List.append_nil _).symm, .done, ?_, nofun⟩
    exact (waiting.symm ▸ (List.append_nil _).symm)
  · intro console s delivery after t empty turned roomy bytes unread
    rcases turn_of_unread roomy unread s with ⟨rfl, closes⟩ | ⟨_, _, _, _, _, _, _, _, goesOn⟩
    · cases closes.symm.trans turned
      refine ⟨[], [], bytesOfText console.prompt, rfl, unread, rfl, rfl, rfl, ?_, .done, ?_, nofun⟩
      · simp [said]
      · exact (List.append_nil _).symm
    · cases goesOn.symm.trans turned
  · intro console s after t came empty turned ih roomy bytes unread
    rcases turn_of_unread roomy unread s with ⟨-, closes⟩ | ⟨line, later, words, answer, u, disk, cut, effect, goesOn⟩
    · cases closes.symm.trans turned
    · cases goesOn.symm.trans turned
      obtain ⟨read, rest, written, asked⟩ := ih rfl _ rfl
      refine ⟨line :: read, rest, bytesOfText console.prompt ++ bytesOfText answer ++ written, ?_, asked.source,
        asked.roomy, asked.slot, asked.prompt, ?_, .line effect asked.obeyed, ?_, asked.answered⟩
      · rw [cut, ← linesOf_flatten_of_cons cut, asked.lines, List.cons_append]
      · rw [asked.said]
        simp [said]
      · rw [asked.words, empty, List.filterMap_cons, words_eq_of_effect effect]
        cases inputText? line <;> simp

/-! ### Histories -/

theorem put_queueLine (console : Console) (text : String) (events : List Event) :
    (console.queueLine text).put events = console.put (.queued text :: events) := by
  rw [put, put, List.flatMap_cons, List.flatMap_append, ← List.append_assoc]
  refine congrArg (· ++ (events.flatMap Event.lines).flatMap numbers) ?_
  simp only [queueLine, List.map_append, map_toNat_wordsOfLine, Event.lines, List.flatMap_singleton]

namespace InOrder

theorem start (console : Console) : InOrder console [] console where
  words := by simp [put]
  answered := nofun
  acted := ⟨[], .done, (List.append_nil _).symm⟩

/-- A text is put in behind what is pending, and does nothing else. -/
theorem queued {text : String} (later : InOrder (console.queueLine text) events last) :
    InOrder console (.queued text :: events) last where
  words := by
    rw [← put_queueLine]
    exact later.words
  answered := by
    intro s read error t among
    cases among with
    | tail _ among => exact later.answered s read error t among
  acted := by
    obtain ⟨written, acted, said⟩ := later.acted
    exact ⟨written, .queued acted, said⟩

/-- A request puts in the lines of input that it reads, and gives the first word. -/
theorem asked {delivery : Delivery} {read : List (List UInt8)} {rest written : List UInt8}
    (asked : Asked console bytes s (delivery, next, t) read rest written) (later : InOrder next events last) :
    InOrder console (.asked s read delivery t :: events) last where
  words := by
    have gives := congrArg (List.map UInt16.toNat) asked.words
    simp only [List.map_append, map_toNat_flatMap_wordsOfLine] at gives
    have words := later.words
    rw [put] at words
    rw [put, List.flatMap_cons, List.flatMap_append, ← List.append_assoc, Event.lines, ← gives, List.append_assoc, ← words,
      ← List.map_append, ← List.append_assoc]
    cases given : given? delivery <;> simp [Event.word?, given]
  answered := by
    intro s read error t among
    cases among with
    | head => exact asked.answered error rfl
    | tail _ among => exact later.answered s read error t among
  acted := by
    obtain ⟨more, acted, said⟩ := later.acted
    have obeyed := asked.obeyed
    rw [← asked.slot, ← asked.prompt] at obeyed ⊢
    exact ⟨written ++ more, .asked obeyed acted, by rw [said, asked.said, List.append_assoc]⟩

end InOrder

theorem inOrder_of_history (history : History console events last) : console.sink.room = none → ∀ bytes,
    console.source = .ofBytes bytes → InOrder console events last := by
  induction history with
  | start => exact fun _ _ _ => .start _
  | queued _ ih => exact fun roomy bytes unread => .queued (ih roomy bytes unread)
  | @asked console next last s t delivery read events came lines _ ih =>
    intro roomy bytes unread
    obtain ⟨taken, rest, written, asked⟩ := exists_asked console s roomy bytes unread
    rw [came] at asked
    have source : next.source = .ofBytes rest := asked.source
    -- The lines are known from what is left.
    rw [source, unread, Source.unread_ofBytes, Source.unread_ofBytes, asked.lines, List.append_cancel_right_eq] at lines
    cases lines
    exact .asked asked (ih asked.roomy rest source)

/-- On devices that do not fail, every call returns. -/
theorem exists_history (calls : List Call) : ∀ console : Console, console.sink.room = none → ∀ bytes,
    console.source = .ofBytes bytes → ∃ events last, History console events last ∧ events.map Event.call = calls := by
  induction calls with
  | nil => exact fun console _ _ _ => ⟨[], console, .start, rfl⟩
  | cons call calls ih =>
    intro console roomy bytes unread
    cases call with
    | queue text =>
      obtain ⟨events, last, history, same⟩ := ih (console.queueLine text) roomy bytes unread
      exact ⟨.queued text :: events, last, .queued history, congrArg (List.cons _) same⟩
    | ask s =>
      obtain ⟨read, rest, written, asked⟩ := exists_asked console s roomy bytes unread
      rcases came : console.nextInput s with ⟨delivery, next, t⟩
      rw [came] at asked
      have source : next.source = .ofBytes rest := asked.source
      obtain ⟨events, last, history, same⟩ := ih next asked.roomy rest source
      refine ⟨.asked s read delivery t :: events, last, .asked came ?_ history, congrArg (List.cons _) same⟩
      rw [source, unread, Source.unread_ofBytes, Source.unread_ofBytes]
      exact asked.lines

/-- A request to which a word is pending reads nothing, writes nothing and leaves the state
    and the disk alone. On devices that do not fail, texts may be queued and words asked for
    in any order: every call returns, and what has been given and what is pending are what was
    put in, in its order, and what is done is done by lines that were read. -/
theorem first_in_first_out {console : Console} {bytes : List UInt8} (roomy : console.sink.room = none)
    (unread : console.source = .ofBytes bytes) :
    (∀ (busy : Console) (s : State), busy.pending ≠ [] → ∃ word rest, busy.pending = word :: rest ∧
      busy.nextInput s = (.word word, { busy with pending := rest }, s)) ∧
    (∀ calls, ∃ events last, History console events last ∧ events.map Event.call = calls) ∧
    ∀ events last, History console events last → InOrder console events last ∧
      last.pending.length = (console.put events).length - (events.filterMap Event.word?).length := by
  refine ⟨?_, fun calls => exists_history calls console roomy bytes unread, ?_⟩
  · intro busy s some
    obtain ⟨word, rest, waiting⟩ := List.exists_cons_of_ne_nil some
    exact ⟨word, rest, waiting, nextInput_of_pending waiting s⟩
  · intro events last history
    have inOrder := inOrder_of_history history roomy bytes unread
    have all := congrArg List.length inOrder.words
    rw [List.length_map, List.length_append] at all
    exact ⟨inOrder, by omega⟩

/-- A line is read, and then a text that looks like a command is queued behind the rest of it. -/
theorem first_in_first_out_interleaved :
    let s : State := .start .empty
    let line := bytesOfText "x\n"
    let console : Console := ⟨.ofBytes line, .new none, [], "save.json", ">>> ", .empty⟩
    let events : List Event :=
      [.asked s [line] (.word 120) s, .queued "save\n1", .asked s [] (.word 10) s, .asked s [] (.word 115) s]
    console.sink.room = none ∧ console.source = .ofBytes line ∧ ∃ last, History console events last ∧
      InOrder console events last ∧ last.pending = [97, 118, 101, 10, 49, 10] := by
  intro s line console events
  have effect : Effect console.slot (Utf8.decodeLossy (chomp line)) s console.disk [120, 10] "" s console.disk := by
    have text : chomp line = Utf8.encode ['x'] := rfl
    rw [text, Utf8.decodeLossy_encode]
    exact .input rfl
  have read : console.source.readLine = (.line line, .ofBytes []) := rfl
  have gives := (nextInput_of_turn_none rfl (turn_of_line rfl read effect)).trans (nextInput_of_pending rfl s)
  have history : History console events _ :=
    .asked gives rfl (.queued (.asked (nextInput_of_pending rfl s) rfl (.asked (nextInput_of_pending rfl s) rfl .start)))
  have law := (@first_in_first_out console line rfl rfl).2.2 events _ history
  exact ⟨rfl, rfl, _, history, law.1, rfl⟩

end WordMachine.Console
