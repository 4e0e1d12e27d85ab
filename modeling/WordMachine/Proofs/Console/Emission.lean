import Mathlib.Data.List.Basic
import WordMachine.Proofs.Console.Capacity

/-!
Words that are emitted. Each is written as the one character that it stands for
(`Console.toNat_charOfWord`), and the characters of all of them can be told apart in what is
written, however many bytes each has. So the text that words are written as is these
characters, and other words are written as it only if they stand for the same
(`Console.emitted_text`).
-/
namespace WordMachine.Console

/-- The number of the character that a word stands for. Half of a surrogate pair stands for
    the replacement character. -/
def scalar (word : Word) : Nat :=
  if 0xD800 ≤ word.toNat ∧ word.toNat ≤ 0xDFFF then 0xFFFD else word.toNat

/-- The first console comes to the second by emitting words one after the other, and none of
    the writes fails. -/
inductive Emits : Console → List Word → Console → Prop
  | nothing {console : Console} : Emits console [] console
  | word {console next last : Console} {word : Word} {words : List Word} :
      console.emit word = (next, none) → Emits next words last → Emits console (word :: words) last

theorem toNat_charOfWord (word : Word) : (charOfWord word).toNat = scalar word := by
  unfold charOfWord scalar
  split
  · rfl
  · next other =>
    have sixteen : word.toNat < 65536 := word.toNat_lt
    have valid : word.toNat.isValidChar := by
      by_cases low : word.toNat < 0xD800
      · exact .inl low
      · exact .inr ⟨by omega, by omega⟩
    rw [Char.ofNat, dif_pos valid]
    rfl

theorem map_charOfWord_eq_iff {words others : List Word} :
    words.map charOfWord = others.map charOfWord ↔ words.map scalar = others.map scalar := by
  have numbers (words : List Word) : words.map scalar = (words.map charOfWord).map Char.toNat := by
    rw [List.map_map]
    exact List.map_congr_left fun word _ => (toNat_charOfWord word).symm
  rw [numbers, numbers]
  exact (List.map_injective_iff.mpr fun _ _ => Char.toNat_inj.mp).eq_iff.symm

variable {console last : Console} {words : List Word}

/-- A write that does not fail is done to its end. -/
theorem said_of_written {next : Console} {bytes : List UInt8} (written : console.write bytes = (next, none)) :
    next.said = console.said ++ bytes := by
  have grown := console.said_write bytes
  have fits : (console.sink.write bytes).2 = none := congrArg Prod.snd written
  rw [written] at grown
  rw [grown]
  cases room : console.sink.room with
  | none => rw [Option.getD_none, List.take_length]
  | some room' => rw [Option.getD_some, List.take_of_length_le (Sink.write_eq_none_iff.mp fits room' room)]

namespace Emits

theorem said (emits : Emits console words last) : last.said = console.said ++ Utf8.encode (words.map charOfWord) := by
  induction emits with
  | nothing => exact (List.append_nil _).symm
  | @word console next last word words emitted _ ih =>
    rw [ih, said_of_written emitted, List.append_assoc, ← Utf8.encode_append]
    rfl

/-- A sink without a bound takes all words. -/
theorem exists_of_roomy (roomy : console.sink.room = none) (words : List Word) : ∃ last, Emits console words last := by
  induction words generalizing console with
  | nil => exact ⟨console, .nothing⟩
  | cons word words ih =>
    obtain ⟨last, emits⟩ := @ih { console with sink := ⟨console.sink.written ++ Utf8.encode [charOfWord word], none⟩ } rfl
    exact ⟨last, .word (write_of_roomy roomy _) emits⟩

end Emits

/-- Words that are emitted without a failure, and none fails on a sink without a bound, add
    bytes to what was written before. These are valid UTF-8, of one character for each word in
    the order of the words. Other words, wherever they are emitted, add the same bytes if and
    only if they stand for the same characters. -/
theorem emitted_text (words : List Word) :
    (∀ console : Console, console.sink.room = none → ∃ last, Emits console words last) ∧
    ∀ console last, Emits console words last → ∃ bytes characters, last.said = console.said ++ bytes ∧
      bytes.toByteArray.utf8Decode? = some characters.toArray ∧ Utf8.decode? bytes = some characters ∧
      characters.map Char.toNat = words.map scalar ∧
      ∀ elsewhere others after added, Emits elsewhere others after → after.said = elsewhere.said ++ added →
        (bytes = added ↔ words.map scalar = others.map scalar) := by
  refine ⟨fun console roomy => Emits.exists_of_roomy roomy words, ?_⟩
  intro console last emits
  refine ⟨Utf8.encode (words.map charOfWord), words.map charOfWord, emits.said, List.utf8Decode?_utf8Encode,
    Utf8.decode?_encode _, ?_, ?_⟩
  · rw [List.map_map]
    exact List.map_congr_left fun word _ => toNat_charOfWord word
  · intro elsewhere others after added emits' grown
    rw [emits'.said, List.append_cancel_left_eq] at grown
    rw [← grown, ← map_charOfWord_eq_iff]
    constructor
    · intro same
      have read := Utf8.decode?_encode (words.map charOfWord)
      rw [same, Utf8.decode?_encode] at read
      exact (Option.some.inj read).symm
    · intro same
      rw [same]

/-- Characters of one, two and three bytes around half of a surrogate pair. -/
theorem emitted_text_surrogate :
    let console : Console := ⟨.ofBytes [], .new none, [], "save.json", ">>> ", .empty⟩
    let words : List Word := [0x48, 0xE9, 0xD800, 0x20AC]
    console.sink.room = none ∧ ∃ last other, ∃ characters : List Char, Emits console words last ∧
      Emits console [0x48, 0xE9, 0xFFFD, 0x20AC] other ∧ last.said = other.said ∧
      last.said.toByteArray.utf8Decode? = some characters.toArray ∧
      characters.map Char.toNat = [0x48, 0xE9, 0xFFFD, 0x20AC] := by
  intro console words
  have silent : console.said = [] := rfl
  obtain ⟨succeeds, text⟩ := emitted_text words
  obtain ⟨last, emits⟩ := succeeds console rfl
  obtain ⟨other, emits'⟩ := (emitted_text [0x48, 0xE9, 0xFFFD, 0x20AC]).1 console rfl
  obtain ⟨bytes, characters, said, valid, -, numbers, only⟩ := text console last emits
  obtain ⟨added, -, said', -⟩ := (emitted_text _).2 console other emits'
  rw [silent, List.nil_append] at said
  have same : bytes = added := (only console _ other added emits' said').mpr rfl
  rw [silent, List.nil_append] at said'
  exact ⟨rfl, last, other, characters, emits, emits', by rw [said, said', same], by rw [said]; exact valid, numbers⟩

end WordMachine.Console
