import WordMachine.Proofs.Console.Loads

/-!
The words that a console gives. What is pending is the rest of lines that were queued, and
stays so whatever is asked of the console (`Console.Queued`); the words of a line have
fifteen bits, so every word has that is given from such a queue (`Console.Queued.nextInput`).
-/
namespace WordMachine.Console

/-- The number of a character in the queue. Characters that need more than fifteen bits count
    as question marks. -/
def number (c : Char) : Nat := if c.toNat ≤ 32767 then c.toNat else '?'.toNat

theorem toNat_wordOfChar (c : Char) : (wordOfChar c).toNat = number c := by
  have mask : Word.mask.toNat = 32767 := rfl
  rw [wordOfChar, number, mask]
  split
  · next small => exact UInt16.toNat_ofNat_of_lt' (by change _ < 65536; omega)
  · rfl

theorem lt_wordOfChar (c : Char) : (wordOfChar c).toNat < 32768 := by
  rw [toNat_wordOfChar, number]
  split
  · omega
  · decide

/-- What is pending is the rest of lines that were queued. -/
def Queued (console : Console) : Prop :=
  ∃ lines : List (List Char), console.pending <:+ lines.flatMap wordsOfLine

theorem queued_of_empty {console : Console} (empty : console.pending = []) : console.Queued :=
  ⟨[], by rw [empty]; exact List.suffix_refl _⟩

/-- A line of input gives all its words and has no answer, and a command gives none. -/
theorem words_of_effect {slot answer : String} {line : List Char} {s t : State} {disk after : Disk} {words : List Word}
    (effect : Effect slot line s disk words answer t after) :
    words = [] ∨ words = wordsOfLine line ∧ answer = "" ∧ t = s ∧ after = disk ∧
      ∃ text, Command.parse (String.ofList line) = .ok (.input text) := by
  cases effect with
  | @input text parsed =>
    refine .inr ⟨?_, rfl, rfl, rfl, text, parsed⟩
    rw [wordsOfLine, List.map_append]
    rfl
  | saved | notSaved | loaded | notLoaded | registerSet | refused => exact .inl rfl

namespace Queued

variable {console after : Console}

theorem lt (queued : console.Queued) {word : Word} (waits : word ∈ console.pending) : word.toNat < 32768 := by
  obtain ⟨lines, rest⟩ := queued
  obtain ⟨line, -, among⟩ := List.mem_flatMap.mp (rest.subset waits)
  obtain ⟨c, -, rfl⟩ := List.mem_map.mp among
  exact lt_wordOfChar c

theorem append (queued : console.Queued) {line : List Char}
    (more : after.pending = console.pending ++ wordsOfLine line) : after.Queued := by
  obtain ⟨lines, front, all⟩ := queued
  refine ⟨lines ++ [line], front, ?_⟩
  rw [more, ← List.append_assoc, all, List.flatMap_append, List.flatMap_singleton]

theorem queueLine (queued : console.Queued) (text : String) : (console.queueLine text).Queued :=
  queued.append rfl

theorem tail (queued : console.Queued) {word : Word} {rest : List Word} (waiting : console.pending = word :: rest)
    (left : after.pending = rest) : after.Queued := by
  obtain ⟨lines, within⟩ := queued
  refine ⟨lines, List.IsSuffix.trans ?_ within⟩
  rw [waiting, left]
  exact List.suffix_cons word rest

/-- A turn queues a line or none. -/
theorem turn (queued : console.Queued) {s t : State} {outcome : Option Delivery}
    (turned : console.turn s = (outcome, after, t)) : after.Queued := by
  have same (kept : after.pending = console.pending) : after.Queued := by
    rw [Queued, kept]
    exact queued
  obtain ⟨-, -, ⟨-, kept, -⟩ | ⟨line, words, answer, -, -, more, effect⟩⟩ := turn_cases turned
  · exact same kept
  · rcases words_of_effect effect with none | ⟨all, -⟩
    · rw [none, List.append_nil] at more
      exact same more
    · rw [all] at more
      exact queued.append more

end Queued

/-- A turn gives no word itself. -/
theorem ne_word_of_turn {console after : Console} {s t : State} {delivery : Delivery}
    (turned : console.turn s = (some delivery, after, t)) (word : Word) : delivery ≠ .word word := by
  unfold turn at turned
  split at turned
  · cases turned
    nofun
  · split at turned
    · cases turned
      nofun
    · cases turned
      nofun
    · split at turned
      split at turned
      · cases turned
        nofun
      · cases turned

/-- From lines that were queued, and lines that are read, come words of fifteen bits. -/
theorem Queued.nextInput {console : Console} (queued : console.Queued) (s : State) :
    (console.nextInput s).2.1.Queued ∧ ∀ word, (console.nextInput s).1 = .word word → word.toNat < 32768 := by
  revert queued
  refine nextInput_induction (P := fun console _ came => console.Queued →
    came.2.1.Queued ∧ ∀ word, came.1 = .word word → word.toNat < 32768) ?_ ?_ ?_ console s
  · intro console s word rest waiting queued
    refine ⟨queued.tail waiting rfl, fun given same => ?_⟩
    cases same
    refine queued.lt ?_
    rw [waiting]
    exact .head _
  · intro console s delivery after t _ turned queued
    exact ⟨queued.turn turned, fun word same => absurd same (ne_word_of_turn turned word)⟩
  · intro console s after t came _ turned ih queued
    exact ih (queued.turn turned)

end WordMachine.Console
