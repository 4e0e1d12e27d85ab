import WordMachine.Proofs.Snapshot.Found
import WordMachine.Proofs.Snapshot.Object

/-!
The parts of a snapshot, all of one kind. The program counter counts as a list of one
word, so that every part is a list of words: `Spelled` says which text stands for it, and
`Holds` the same with spaces around. A reader of parts takes such a text for these words
(`readPart_spelled`), and where it finds words such a text was there (`readPart_eq_ok`).
-/
namespace WordMachine.Snapshot
open Json

/-! ### Parts and drafts -/

/-- A part of a snapshot. -/
def part (snapshot : Snapshot) : Field → List Word
  | .pc => [snapshot.pc]
  | .registers => snapshot.registers
  | .stack => snapshot.stack
  | .memory => snapshot.memory

namespace Draft

/-- A part that has been read. -/
def part (draft : Draft) : Field → Option (List Word)
  | .pc => draft.pc.map fun w => [w]
  | .registers => draft.registers
  | .stack => draft.stack
  | .memory => draft.memory

/-- The draft with a part that has been read. -/
def put (draft : Draft) (field : Field) (words : List Word) : Draft :=
  match field with
  | .pc => { draft with pc := words.head? }
  | .registers => { draft with registers := some words }
  | .stack => { draft with stack := some words }
  | .memory => { draft with memory := some words }

theorem has_iff {draft : Draft} {field : Field} : draft.has field = false ↔ draft.part field = none := by
  cases field <;> simp [has, part]

theorem part_put_of_ne {field other : Field} (ne : other ≠ field) (draft : Draft) (words : List Word) :
    (draft.put field words).part other = draft.part other := by
  cases field <;> cases other <;> first | rfl | exact absurd rfl ne

theorem part_empty (field : Field) : Draft.empty.part field = none := by cases field <;> rfl

/-- A draft is finished once it has all parts, of which the stack may be left out. -/
theorem finish_eq_ok_iff {draft : Draft} {snapshot : Snapshot} :
    draft.finish = .ok snapshot ↔ ∀ field, draft.part field = some (snapshot.part field) ∨
      field = .stack ∧ draft.part field = none ∧ snapshot.part field = [] := by
  obtain ⟨pc, registers, stack, memory⟩ := draft
  obtain ⟨pc', registers', stack', memory'⟩ := snapshot
  constructor
  · intro finished
    rcases pc with _ | pc <;> rcases registers with _ | registers <;> rcases memory with _ | memory <;> cases finished
    rintro (_ | _ | _ | _)
    · exact .inl rfl
    · exact .inl rfl
    · rcases stack with _ | stack
      · exact .inr ⟨rfl, rfl, rfl⟩
      · exact .inl rfl
    · exact .inl rfl
  · intro all
    obtain rfl : pc = some pc' := by simpa [part, Snapshot.part] using all .pc
    obtain rfl : registers = some registers' := by simpa [part, Snapshot.part] using all .registers
    obtain rfl : memory = some memory' := by simpa [part, Snapshot.part] using all .memory
    rcases all .stack with present | ⟨-, absent, empty⟩
    · obtain rfl : stack = some stack' := present
      rfl
    · obtain rfl : stack = none := absent
      obtain rfl : stack' = [] := empty
      rfl

end Draft

/-! ### Texts of parts -/

/-- The text of a part. -/
inductive Spelled : Field → List Word → List UInt8 → Prop
  | word {w : Word} : Spelled .pc [w] (wordBytes w)
  | list {field : Field} {words : List Word} {text : List UInt8} :
      field ≠ .pc → Listed words text → Spelled field words (91 :: text)

/-- A text that is the one of a part, with spaces around it. -/
def Holds (field : Field) (words : List Word) (value : List UInt8) : Prop :=
  ∃ front text back, Blank front ∧ Blank back ∧ Spelled field words text ∧ value = front ++ (text ++ back)

/-- A part at the front of a text. -/
def readPart : Field → List UInt8 → Except Json.Error (List Word × List UInt8)
  | .pc, bytes => (readWord bytes).map fun (word, rest) => ([word], rest)
  | _, bytes => readWords bytes

theorem readField_eq (draft : Draft) (field : Field) (bytes : List UInt8) :
    readField draft field bytes = (readPart field bytes).map fun (words, rest) => (draft.put field words, rest) := by
  cases field with
  | pc => rcases read : readWord bytes with error | ⟨w, rest⟩ <;> simp only [readField, readPart, read] <;> rfl
  | registers | stack | memory => rfl

theorem readPart_spelled {field : Field} {words : List Word} {front text rest : List UInt8} (blank : Blank front)
    (spelled : Spelled field words text) (ends : field = .pc → Ends rest) :
    readPart field (front ++ (text ++ rest)) = .ok (words, rest) := by
  cases spelled with
  | @word w =>
    have read : readWord (front ++ (wordBytes w ++ rest)) = .ok (w, rest) := by
      rw [← readWord_trim, trim_append blank, readWord_trim, readWord_wordBytes w (ends rfl)]
    rw [readPart, read]
    rfl
  | @list field words text other listed =>
    have read := readWords_listText (listText_iff.mpr ⟨front, text, blank, listed, rfl⟩) rest
    rw [List.append_assoc] at read
    cases field with
    | pc => exact absurd rfl other
    | registers | stack | memory => exact read

theorem readPart_eq_ok {field : Field} {words : List Word} {bytes rest : List UInt8}
    (read : readPart field bytes = .ok (words, rest)) :
    ∃ front text, Blank front ∧ Spelled field words text ∧ bytes = front ++ (text ++ rest) ∧
      (field = .pc → Ends rest) := by
  cases field with
  | pc =>
    rcases given : readWord bytes with error | ⟨w, after⟩
    · rw [readPart, given] at read
      cases read
    · rw [readPart, given] at read
      cases read
      obtain ⟨front, blank, rfl, ends⟩ := readWord_eq_ok given
      exact ⟨front, wordBytes w, blank, .word, rfl, fun _ => ends⟩
  | registers | stack | memory =>
    obtain ⟨front, text, blank, listed, rfl⟩ := readWords_eq_ok read
    exact ⟨front, 91 :: text, blank, .list nofun listed, rfl, nofun⟩

/-- The members of an object are read one after the other, to its closing brace. -/
theorem readMembers_eq_ok_iff {draft : Draft} {bytes rest : List UInt8} {snapshot : Snapshot} :
    readMembers draft bytes = .ok (snapshot, rest) ↔ ∃ between left, readMember draft bytes = .ok (between, left) ∧
      (nextInObject left = .ok (.behind rest) ∧ between.finish = .ok snapshot ∨
        ∃ more, nextInObject left = .ok (.before more) ∧ readMembers between more = .ok (snapshot, rest)) := by
  rw [readMembers_eq]
  constructor
  · intro read
    split at read
    · cases read
    · next between left first =>
      refine ⟨between, left, first, ?_⟩
      split at read
      · cases read
      · next next =>
        rcases finished : between.finish with error | found
        · rw [finished] at read
          cases read
        · rw [finished] at read
          cases read
          exact .inl ⟨next, rfl⟩
      · next more next => exact .inr ⟨more, next, read⟩
  · rintro ⟨between, left, first, ⟨next, finished⟩ | ⟨more, next, later⟩⟩
    · simp only [first, next, finished]
      rfl
    · simp only [first, next, later]

/-- A text is the one of no more than one part. -/
theorem Holds.unique {field : Field} {words words' : List Word} {value : List UInt8} (held : Holds field words value)
    (held' : Holds field words' value) : words = words' := by
  obtain ⟨front, text, back, blank, blank', spelled, rfl⟩ := held
  obtain ⟨front', text', back', blank'', blank''', spelled', same⟩ := held'
  have ends {spaces : List UInt8} (blank : Blank spaces) : Ends (spaces ++ [44]) :=
    ends_append blank (ends_cons.mpr (by decide))
  have read := readPart_spelled blank spelled fun _ => ends blank'
  have read' := readPart_spelled blank'' spelled' fun _ => ends blank'''
  have whole : front ++ (text ++ (back ++ [44])) = front' ++ (text' ++ (back' ++ [44])) := by
    simpa using congrArg (· ++ [44]) same
  rw [whole, read', Except.ok.injEq, Prod.mk.injEq] at read
  exact read.1.symm

theorem Spelled.part_put {field : Field} {words : List Word} {text : List UInt8} (spelled : Spelled field words text)
    (draft : Draft) : (draft.put field words).part field = some words := by
  cases spelled with
  | word => rfl
  | @list field _ _ other _ =>
    cases field with
    | pc => exact absurd rfl other
    | registers | stack | memory => rfl

theorem Holds.part_put {field : Field} {words : List Word} {value : List UInt8} (held : Holds field words value)
    (draft : Draft) : (draft.put field words).part field = some words := by
  obtain ⟨front, text, back, -, -, spelled, -⟩ := held
  exact spelled.part_put draft

/-! ### Parts are values -/

theorem ItemsText.exists_items {words : List Word} {text : List UInt8} (items : ItemsText words text) :
    ∃ (first : Item) (later : List Item),
      (∀ item ∈ first :: later, (LeadText .list item.lead ∧ Blank item.back) ∧ ValueText item.value) ∧
      text = commas ((first :: later).map Item.bytes) ++ [93] := by
  have value (w : Word) : ValueText (wordBytes w) := .number (numberText_decimal w.toNat)
  induction items with
  | @last before after w front back =>
    refine ⟨⟨before, wordBytes w, after⟩, [], ?_, by simp [commas_singleton, Item.bytes]⟩
    simpa using ⟨⟨LeadText.list front, back⟩, value w⟩
  | @more before after text w words front back later ih =>
    obtain ⟨second, more, all, rfl⟩ := ih
    refine ⟨⟨before, wordBytes w, after⟩, second :: more, ?_, by simp [commas_cons_cons, Item.bytes]⟩
    rintro item (_ | ⟨_, member⟩)
    · exact ⟨⟨.list front, back⟩, value w⟩
    · exact all item member

theorem Spelled.valueText {field : Field} {words : List Word} {text : List UInt8} (spelled : Spelled field words text) :
    ValueText text := by
  cases spelled with
  | @word w => exact .number (numberText_decimal w.toNat)
  | list _ listed =>
    cases listed with
    | empty blank => exact @ValueText.empty .list _ blank
    | items items =>
      obtain ⟨first, later, all, rfl⟩ := items.exists_items
      exact @ValueText.items .list _ _ (fun item member => (all item member).1) fun item member => (all item member).2

end WordMachine.Snapshot
