import WordMachine.Proofs.Console.Turn

/-!
Two consoles side by side. Both have the same lines to read, and the second has lines of
another kind in between (`Interposed`). A `Comparison` says which lines are of which kind and
how the disks are alike, with the proofs that a line of the first kind does the same on both
sides (`Effect.of_alike`) and that one of the other kind does nothing but to its disk. A
request for input then comes to the same on both (`Comparison.nextInput`), and the second
console has written what the first has, and the answers to its own lines (`Interspersed`).
-/
namespace WordMachine

/-- The second list has the lines of the first in their order, and lines of a kind in
    between. -/
inductive Interposed (extra : List UInt8 → Prop) : List (List UInt8) → List (List UInt8) → Prop
  | nil : Interposed extra [] []
  | keep (line : List UInt8) {lines more : List (List UInt8)} :
      Interposed extra lines more → Interposed extra (line :: lines) (line :: more)
  | insert {line : List UInt8} {lines more : List (List UInt8)} :
      extra line → Interposed extra lines more → Interposed extra lines (line :: more)

theorem Interposed.refl (extra : List UInt8 → Prop) (lines : List (List UInt8)) : Interposed extra lines lines := by
  induction lines with
  | nil => exact .nil
  | cons line lines ih => exact .keep line ih

theorem Interposed.insert_between {extra : List UInt8 → Prop} {lines before after : List (List UInt8)}
    {line : List UInt8} (between : Interposed extra lines (before ++ after)) (new : extra line) :
    Interposed extra lines (before ++ line :: after) := by
  induction before generalizing lines with
  | nil => exact .insert new between
  | cons other before ih =>
    cases between with
    | keep _ between => exact .keep other (ih between)
    | insert old between => exact .insert old (ih between)

/-- Without lines of the other kind the lists are the same. -/
theorem Interposed.eq_of_never {lines more : List (List UInt8)} (between : Interposed (fun _ => False) lines more) :
    lines = more := by
  induction between with
  | nil => rfl
  | keep line _ ih => rw [ih]
  | insert never _ _ => exact never.elim

/-- From given beginnings on, the second output is the first with prompts in between, each
    with the answer to a line of a kind behind it. -/
inductive Interspersed (slot prompt : String) (extra : List UInt8 → Prop) (said told : Array UInt8) :
    Array UInt8 → Array UInt8 → Prop
  | start : Interspersed slot prompt extra said told said told
  | both {first second : Array UInt8} (bytes : List UInt8) :
      Interspersed slot prompt extra said told first second →
      Interspersed slot prompt extra said told (first ++ bytes) (second ++ bytes)
  | answer {first second : Array UInt8} {line : List UInt8} {s t : State} {disk after : Disk} {words : List Word}
      {answer : String} :
      extra line → Effect slot (Utf8.decodeLossy (chomp line)) s disk words answer t after →
      Interspersed slot prompt extra said told first second →
      Interspersed slot prompt extra said told first
        (second ++ Console.bytesOfText prompt ++ Console.bytesOfText answer)

/-- Without lines of the other kind the outputs grow alike. -/
theorem Interspersed.grown {slot prompt : String} {said told first second : Array UInt8}
    (grown : Interspersed slot prompt (fun _ => False) said told first second) :
    ∃ more : Array UInt8, first = said ++ more ∧ second = told ++ more := by
  induction grown with
  | start => exact ⟨#[], by simp, by simp⟩
  | both bytes _ ih =>
    obtain ⟨more, rfl, rfl⟩ := ih
    exact ⟨more ++ bytes, Sink.append_assoc said more bytes, Sink.append_assoc told more bytes⟩
  | answer never _ _ _ => exact never.elim

/-- A line does the same on two disks if a save does, and also a load if the line is one. -/
theorem Effect.of_alike {alike : Disk → Disk → Prop} {slot : String} {line : List Char} {s t : State}
    {disk other after : Disk} {words : List Word} {answer : String} (same : alike disk other)
    (saves : ∀ {after}, Slot.save disk slot s = .ok after → ∃ left, Slot.save other slot s = .ok left ∧ alike after left)
    (refuses : ∀ {error}, Slot.save disk slot s = .error error → Slot.save other slot s = .error error)
    (loads : Command.parse (String.ofList line) = .ok .load → Slot.load disk slot = Slot.load other slot)
    (effect : Effect slot line s disk words answer t after) :
    ∃ left, Effect slot line s other words answer t left ∧ alike after left := by
  cases effect with
  | input parsed => exact ⟨other, .input parsed, same⟩
  | saved parsed saved =>
    obtain ⟨left, alsoSaved, still⟩ := saves saved
    exact ⟨left, .saved parsed alsoSaved, still⟩
  | notSaved parsed refused => exact ⟨other, .notSaved parsed (refuses refused), same⟩
  | loaded parsed loaded => exact ⟨other, .loaded parsed (loads parsed ▸ loaded), same⟩
  | notLoaded parsed refused => exact ⟨other, .notLoaded parsed (loads parsed ▸ refused), same⟩
  | registerSet parsed => exact ⟨other, .registerSet parsed, same⟩
  | refused parsed => exact ⟨other, .refused parsed, same⟩

/-- Two runs side by side: their slot and prompt, the lines that both may read, those that
    only the second may read, and how the disks are alike; and what each had written and
    how many steps it had taken at the beginning. -/
structure Comparison where
  slot : String
  prompt : String
  kept : List UInt8 → Prop
  extra : List UInt8 → Prop
  alike : Disk → Disk → Prop
  said : Array UInt8
  told : Array UInt8
  early : Nat
  late : Nat
  /-- A line of both does the same on both sides. -/
  both : ∀ {line : List UInt8} {s t : State} {disk other after : Disk} {words : List Word} {answer : String},
    kept line → alike disk other → Effect slot (Utf8.decodeLossy (chomp line)) s disk words answer t after →
    ∃ left, Effect slot (Utf8.decodeLossy (chomp line)) s other words answer t left ∧ alike after left
  /-- A line of the second alone does nothing but to its disk. -/
  alone : ∀ {line : List UInt8} {s t : State} {disk other left : Disk} {words : List Word} {answer : String},
    extra line → alike disk other → Effect slot (Utf8.decodeLossy (chomp line)) s other words answer t left →
    words = [] ∧ t = s ∧ alike disk left

namespace Console

/-- The lines are there to be read, and the sink takes all that is written. -/
structure Reads (console : Console) (lines : List (List UInt8)) : Prop where
  source : ∃ bytes, console.source = .ofBytes bytes ∧ linesOf bytes = lines
  roomy : console.sink.room = none

variable {console : Console} {line : List UInt8} {later : List (List UInt8)}

theorem Reads.of_cons (reads : console.Reads (line :: later)) :
    console.source.readLine = (.line line, .ofBytes later.flatten) ∧ linesOf later.flatten = later := by
  obtain ⟨bytes, unread, cut⟩ := reads.source
  refine ⟨?_, linesOf_flatten_of_cons cut⟩
  rw [unread, Source.readLine_ofBytes, cut]

/-- A request on a console without pending words goes on after the effect of the line. -/
theorem Reads.nextInput {s t : State} {words : List Word} {answer : String} {after : Disk}
    (reads : console.Reads (line :: later)) (empty : console.pending = [])
    (effect : Effect console.slot (Utf8.decodeLossy (chomp line)) s console.disk words answer t after) :
    console.nextInput s
      = nextInput ⟨.ofBytes later.flatten,
          ⟨console.sink.written ++ bytesOfText console.prompt ++ bytesOfText answer, none⟩,
          words, console.slot, console.prompt, after⟩ t := by
  have turned := turn_of_line reads.roomy reads.of_cons.1 effect
  rw [empty, List.nil_append] at turned
  exact nextInput_of_turn_none empty turned

theorem Reads.of_nil (reads : console.Reads []) : console.source = .ofBytes [] := by
  obtain ⟨bytes, unread, cut⟩ := reads.source
  rw [unread, linesOf_eq_nil_iff.mp cut]

theorem Reads.source_unique {first second : Console} {lines : List (List UInt8)} (reads : first.Reads lines)
    (alsoReads : second.Reads lines) : first.source = second.source := by
  obtain ⟨bytes, unread, cut⟩ := reads.source
  obtain ⟨others, alsoUnread, alsoCut⟩ := alsoReads.source
  rw [unread, alsoUnread, ← flatten_linesOf bytes, cut, ← alsoCut, flatten_linesOf]

end Console

namespace Comparison

/-- The consoles have come equally far: they have the same words pending, and the same
    lines to read but for those of the second alone. -/
structure Abreast (c : Comparison) (lines more : List (List UInt8)) (first second : Console) : Prop where
  kept : ∀ line ∈ lines, c.kept line
  reads : first.Reads lines
  alsoReads : second.Reads more
  pending : first.pending = second.pending
  slot : first.slot = c.slot
  alsoSlot : second.slot = c.slot
  prompt : first.prompt = c.prompt
  alsoPrompt : second.prompt = c.prompt
  alike : c.alike first.disk second.disk
  written : Interspersed c.slot c.prompt c.extra c.said c.told first.sink.written second.sink.written

/-- Two requests have come to the same, and their consoles are abreast. -/
structure Agree (c : Comparison) (one other : Delivery × Console × State) : Prop where
  delivery : one.1 = other.1
  state : one.2.2 = other.2.2
  abreast : ∃ lines more, Interposed c.extra lines more ∧ c.Abreast lines more one.2.1 other.2.1

variable {c : Comparison} {lines more : List (List UInt8)} {first second : Console}

/-- Consoles stay abreast if both write the same. -/
theorem Abreast.write (abreast : c.Abreast lines more first second) (bytes : List UInt8) :
    c.Abreast lines more (first.write bytes).1 (second.write bytes).1 := by
  rw [Console.write_of_roomy abreast.reads.roomy, Console.write_of_roomy abreast.alsoReads.roomy]
  exact { abreast with
    reads := ⟨abreast.reads.source, rfl⟩
    alsoReads := ⟨abreast.alsoReads.source, rfl⟩
    written := abreast.written.both bytes }

/-- Pending words are the same on both. -/
theorem Abreast.agree_of_pending (abreast : c.Abreast lines more first second) (between : Interposed c.extra lines more)
    {word : Word} {rest : List Word} (waiting : first.pending = word :: rest) (s : State) :
    c.Agree (first.nextInput s) (second.nextInput s) := by
  rw [Console.nextInput_of_pending waiting, Console.nextInput_of_pending (abreast.pending ▸ waiting)]
  refine ⟨rfl, rfl, lines, more, between, ?_⟩
  exact { abreast with
    reads := ⟨abreast.reads.source, abreast.reads.roomy⟩
    alsoReads := ⟨abreast.alsoReads.source, abreast.alsoReads.roomy⟩
    pending := rfl }

/-- After a line of both the consoles are abreast again. -/
theorem Abreast.keep {line : List UInt8} (abreast : c.Abreast (line :: lines) (line :: more) first second)
    (words : List Word) (answer : String) {after left : Disk} (alike : c.alike after left) :
    c.Abreast lines more
      ⟨.ofBytes lines.flatten, ⟨first.sink.written ++ Console.bytesOfText first.prompt ++ Console.bytesOfText answer,
        none⟩, words, first.slot, first.prompt, after⟩
      ⟨.ofBytes more.flatten, ⟨second.sink.written ++ Console.bytesOfText second.prompt
        ++ Console.bytesOfText answer, none⟩, words, second.slot, second.prompt, left⟩ where
  kept := fun other member => abreast.kept other (List.mem_cons_of_mem line member)
  reads := ⟨⟨_, rfl, abreast.reads.of_cons.2⟩, rfl⟩
  alsoReads := ⟨⟨_, rfl, abreast.alsoReads.of_cons.2⟩, rfl⟩
  pending := rfl
  slot := abreast.slot
  alsoSlot := abreast.alsoSlot
  prompt := abreast.prompt
  alsoPrompt := abreast.alsoPrompt
  alike := alike
  written := by
    simp only [abreast.prompt, abreast.alsoPrompt]
    exact (abreast.written.both _).both _

/-- A line that the second console alone reads leaves the consoles abreast. -/
theorem Abreast.insert {line : List UInt8} (abreast : c.Abreast lines (line :: more) first second)
    (empty : first.pending = []) (extra : c.extra line) {s t : State} {words : List Word} {answer : String} {left : Disk}
    (effect : Effect c.slot (Utf8.decodeLossy (chomp line)) s second.disk words answer t left)
    (alike : c.alike first.disk left) :
    c.Abreast lines more first
      ⟨.ofBytes more.flatten, ⟨second.sink.written ++ Console.bytesOfText second.prompt
        ++ Console.bytesOfText answer, none⟩, [], second.slot, second.prompt, left⟩ :=
  { abreast with
    alsoReads := ⟨⟨_, rfl, abreast.alsoReads.of_cons.2⟩, rfl⟩
    pending := empty
    alike := alike
    written := by
      simp only [abreast.alsoPrompt]
      exact .answer extra effect abreast.written }

/-- A request for input comes to the same on two consoles that are abreast, whatever lines
    the second one reads besides. -/
theorem nextInput (between : Interposed c.extra lines more) (abreast : c.Abreast lines more first second) (s : State) :
    c.Agree (first.nextInput s) (second.nextInput s) := by
  induction between generalizing first second s with
  | nil =>
    cases waiting : first.pending with
    | cons word rest => exact abreast.agree_of_pending .nil waiting s
    | nil =>
      have closed := Console.nextInput_of_end abreast.reads.roomy waiting abreast.reads.of_nil s
      have alsoClosed := Console.nextInput_of_end abreast.alsoReads.roomy (abreast.pending ▸ waiting)
        abreast.alsoReads.of_nil s
      rw [closed, alsoClosed]
      refine ⟨rfl, rfl, [], [], .nil, ?_⟩
      exact { abreast with
        reads := ⟨abreast.reads.source, rfl⟩
        alsoReads := ⟨abreast.alsoReads.source, rfl⟩
        written := by
          simp only [abreast.prompt, abreast.alsoPrompt]
          exact abreast.written.both _ }
  | @keep line lines more between ih =>
    cases waiting : first.pending with
    | cons word rest => exact abreast.agree_of_pending (.keep line between) waiting s
    | nil =>
      obtain ⟨words, answer, t, after, effect⟩ := exists_effect c.slot (Utf8.decodeLossy (chomp line)) s first.disk
      obtain ⟨left, alsoEffect, alike⟩ := c.both (abreast.kept line List.mem_cons_self) abreast.alike effect
      rw [← abreast.slot] at effect
      rw [← abreast.alsoSlot] at alsoEffect
      rw [abreast.reads.nextInput waiting effect,
        abreast.alsoReads.nextInput (abreast.pending ▸ waiting) alsoEffect]
      exact ih (abreast.keep words answer alike) t
  | @insert line lines more extra between ih =>
    cases waiting : first.pending with
    | cons word rest => exact abreast.agree_of_pending (.insert extra between) waiting s
    | nil =>
      obtain ⟨words, answer, t, left, effect⟩ := exists_effect c.slot (Utf8.decodeLossy (chomp line)) s second.disk
      obtain ⟨rfl, rfl, alike⟩ := c.alone extra abreast.alike effect
      have onward := abreast.insert waiting extra effect alike
      rw [← abreast.alsoSlot] at effect
      rw [abreast.alsoReads.nextInput (abreast.pending ▸ waiting) effect]
      exact ih onward t

end Comparison

end WordMachine
