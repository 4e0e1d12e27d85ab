import WordMachine.Proofs.Console.Turn

/-!
What a console makes of a whole input. `Conversation` is the input line by line: which
words it holds for the program, what is written, and what becomes of the state and the
disk. A console that is asked for input until it closes goes through the conversation
of its input, and through no other (`drained_iff`).
-/
namespace WordMachine

/-- The texts of the lines of an input, obeyed in their order from a state and a disk:
    the words for the program, the bytes that are written, and the state and the disk
    at the end. Before each line there is a prompt, and one more at the end. -/
inductive Conversation (slot prompt : String) :
    List (List UInt8) → State → Disk → List Word → List UInt8 → State → Disk → Prop
  | done {s : State} {disk : Disk} :
      Conversation slot prompt [] s disk [] (Console.bytesOfText prompt) s disk
  | line {text : List UInt8} {texts : List (List UInt8)} {s t u : State} {disk after final : Disk}
      {words later : List Word} {answer : String} {written : List UInt8} :
      Effect slot (Utf8.decodeLossy text) s disk words answer t after →
      Conversation slot prompt texts t after later written u final →
      Conversation slot prompt (text :: texts) s disk (words ++ later)
        (Console.bytesOfText prompt ++ Console.bytesOfText answer ++ written) u final

/-- The words that a console gives until it closes, each to the state that came of the
    request before, and the console and the state at the end. -/
inductive Drained : Console → State → List Word → Console → State → Prop
  | closed {console final : Console} {s t : State} : console.nextInput s = (.closed, final, t) →
      Drained console s [] final t
  | word {console next final : Console} {s t u : State} {word : Word} {words : List Word} :
      console.nextInput s = (.word word, next, t) → Drained next t words final u →
      Drained console s (word :: words) final u

theorem exists_conversation (slot prompt : String) (texts : List (List UInt8)) (s : State) (disk : Disk) :
    ∃ words written t after, Conversation slot prompt texts s disk words written t after := by
  induction texts generalizing s disk with
  | nil => exact ⟨_, _, _, _, .done⟩
  | cons text texts ih =>
    obtain ⟨words, answer, t, after, effect⟩ := exists_effect slot (Utf8.decodeLossy text) s disk
    obtain ⟨later, written, u, final, rest⟩ := ih t after
    exact ⟨_, _, _, _, .line effect rest⟩

namespace Drained

theorem unique {console final other : Console} {s t u : State} {words more : List Word}
    (first : Drained console s words final t) (second : Drained console s more other u) :
    words = more ∧ final = other ∧ t = u := by
  induction first generalizing more with
  | closed asked =>
    cases second with
    | closed again =>
      rw [asked] at again
      cases again
      exact ⟨rfl, rfl, rfl⟩
    | word again _ =>
      rw [asked] at again
      cases again
  | word asked _ ih =>
    cases second with
    | closed again =>
      rw [asked] at again
      cases again
    | word again rest =>
      rw [asked] at again
      cases again
      obtain ⟨rfl, rfl, rfl⟩ := ih rest
      exact ⟨rfl, rfl, rfl⟩

/-- Only the answer to the next request counts. -/
theorem of_nextInput_eq {console other final : Console} {s t u : State} {words : List Word}
    (same : console.nextInput s = other.nextInput t) (drained : Drained other t words final u) :
    Drained console s words final u := by
  cases drained with
  | closed asked => exact .closed (same.trans asked)
  | word asked rest => exact .word (same.trans asked) rest

/-- Words that are pending come first. -/
theorem of_pending {console final : Console} {s t : State} {words : List Word} (waiting : List Word)
    (empty : console.pending = []) (drained : Drained console s words final t) :
    Drained { console with pending := waiting } s (waiting ++ words) final t := by
  induction waiting with
  | nil =>
    obtain ⟨source, sink, pending, slot, prompt, disk⟩ := console
    cases empty
    exact drained
  | cons word waiting ih => exact .word (Console.nextInput_of_pending rfl s) ih

end Drained

/-- A console whose devices do not fail goes through the conversation of its input. -/
theorem drained_of_conversation {slot prompt : String} {bytes : List UInt8} {texts : List (List UInt8)}
    (split : Splits bytes texts) {s t : State} {disk after : Disk} {words : List Word} {said : List UInt8}
    (conversation : Conversation slot prompt texts s disk words said t after) (written : Array UInt8) :
    Drained ⟨.ofBytes bytes, ⟨written, none⟩, [], slot, prompt, disk⟩ s words
      ⟨.ofBytes [], ⟨written ++ said, none⟩, [], slot, prompt, after⟩ t := by
  induction conversation generalizing bytes written with
  | done =>
    cases split
    exact .closed (Console.nextInput_of_end rfl rfl rfl _)
  | @line text texts s t u disk after final words later answer said effect _ ih =>
    obtain ⟨line, rest, read, rfl, remains⟩ := Source.readLine_of_splits_cons split
    let console : Console := ⟨.ofBytes bytes, ⟨written, none⟩, [], slot, prompt, disk⟩
    have turned := @Console.turn_of_line console s t line _ words answer after rfl read effect
    have drained := (ih remains
      (written ++ Console.bytesOfText prompt ++ Console.bytesOfText answer)).of_pending words rfl
    rw [Sink.append_append, Sink.append_append]
    exact .of_nextInput_eq (Console.nextInput_of_turn_none rfl turned) drained

/-- A console with nothing pending, whose devices do not fail, can be asked for words
    until it closes. What it gives, what it writes and what becomes of the state and the
    disk is the conversation of its input, and nothing is left unread or pending. -/
theorem drained_iff (bytes : List UInt8) (written : Array UInt8) (slot prompt : String) (disk : Disk) (s : State) :
    let console : Console := ⟨.ofBytes bytes, ⟨written, none⟩, [], slot, prompt, disk⟩
    (∃ words final t, Drained console s words final t) ∧
    ∀ words final t, Drained console s words final t ↔
      ∃ texts said after, Splits bytes texts ∧ Conversation slot prompt texts s disk words said t after ∧
        final = ⟨.ofBytes [], ⟨written ++ said, none⟩, [], slot, prompt, after⟩ := by
  intro console
  have split := splits_linesOf bytes
  obtain ⟨words, said, t, after, conversation⟩ :=
    exists_conversation slot prompt ((linesOf bytes).map chomp) s disk
  have drained : Drained console s words _ t := drained_of_conversation split conversation written
  refine ⟨⟨words, _, t, drained⟩, ?_⟩
  intro more final u
  constructor
  · intro other
    obtain ⟨rfl, rfl, rfl⟩ := drained.unique other
    exact ⟨_, said, after, split, conversation, rfl⟩
  · rintro ⟨texts, spoken, left, cut, held, rfl⟩
    exact drained_of_conversation cut held written

end WordMachine
