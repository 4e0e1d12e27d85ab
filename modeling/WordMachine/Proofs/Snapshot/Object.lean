import WordMachine.Proofs.Snapshot.Words
import WordMachine.Snapshot.Writer

/-!
Snapshots as objects. `MembersText` says which texts stand for the members of a
snapshot, and the reader collects from them what they say, one member after the
other (`readMembers_membersText`). What the writer makes of a snapshot is such a
text, so it is read as the snapshot (`parse_bytes`).
-/
namespace WordMachine.Snapshot
open Json

/-! ### Names -/

/-- A name whose bytes stand for themselves in a string. -/
def Plain (name : List Char) : Prop := ∀ b ∈ Utf8.encode name, b ≠ 34 ∧ b ≠ 92 ∧ ¬ b < 32

instance (name : List Char) : Decidable (Plain name) :=
  decidable_of_iff ((Utf8.encode name).all (fun b => decide (b ≠ 34 ∧ b ≠ 92 ∧ ¬ b < 32)) = true) (by simp [Plain])

private theorem readContents_plain {bytes : List UInt8} (plain : ∀ b ∈ bytes, b ≠ 34 ∧ b ≠ 92 ∧ ¬ b < 32)
    (found rest : List UInt8) : readContents found (bytes ++ 34 :: rest) = .ok (found.reverse ++ bytes, rest) := by
  induction bytes generalizing found with
  | nil =>
    rw [List.nil_append, readContents, if_pos rfl, List.append_nil]
  | cons b bytes ih =>
    obtain ⟨quote, escape, control⟩ := plain b List.mem_cons_self
    rw [List.cons_append, readContents, if_neg quote, if_neg escape, if_neg control,
      ih fun c member => plain c (List.mem_cons_of_mem b member), List.reverse_cons, List.append_assoc]
    rfl

theorem readText_plain {name : List Char} (plain : Plain name) (rest : List UInt8) :
    readText (Utf8.encode name ++ 34 :: rest) = .ok (name, rest) := by
  rw [readText, readContents_plain plain]
  simp only [List.reverse_nil, List.nil_append, Utf8.decode?_encode]

theorem plain_name (field : Field) : Plain field.name.toList := by cases field <;> decide

theorem ofName?_name (field : Field) : Field.ofName? field.name.toList = some field := by
  cases field <;> decide

/-! ### Members -/

/-- The text of the value that a snapshot has for a part. -/
inductive PartText (snapshot : Snapshot) : Field → List UInt8 → Prop
  | pc {front : List UInt8} (blank : Blank front) : PartText snapshot .pc (front ++ wordBytes snapshot.pc)
  | registers {text : List UInt8} (list : ListText snapshot.registers text) : PartText snapshot .registers text
  | stack {text : List UInt8} (list : ListText snapshot.stack text) : PartText snapshot .stack text
  | memory {text : List UInt8} (list : ListText snapshot.memory text) : PartText snapshot .memory text

/-- The draft with a part of a snapshot. -/
def Draft.take (snapshot : Snapshot) (draft : Draft) : Field → Draft
  | .pc => { draft with pc := some snapshot.pc }
  | .registers => { draft with registers := some snapshot.registers }
  | .stack => { draft with stack := some snapshot.stack }
  | .memory => { draft with memory := some snapshot.memory }

theorem readField_partText {snapshot : Snapshot} {field : Field} {text rest : List UInt8}
    (part : PartText snapshot field text) (ends : Ends rest) (draft : Draft) :
    readField draft field (text ++ rest) = .ok (draft.take snapshot field, rest) := by
  cases part with
  | @pc front blank =>
    have word : readWord (front ++ wordBytes snapshot.pc ++ rest) = .ok (snapshot.pc, rest) := by
      rw [List.append_assoc, ← readWord_trim, trim_append blank, readWord_trim, readWord_wordBytes _ ends]
    simp only [readField, word]
    rfl
  | registers list | stack list | memory list =>
    simp only [readField, readWords_listText list rest]
    rfl

/-- A member that gives a part of a snapshot, after the opening quote of its name. It
    takes a draft without the part to the one with it. -/
inductive MemberText (snapshot : Snapshot) : Draft → Draft → List UInt8 → Prop
  | part {draft : Draft} {name : List Char} {field : Field} {gap value : List UInt8} (plain : Plain name)
      (named : Field.ofName? name = some field) (new : draft.has field = false) (blank : Blank gap)
      (part : PartText snapshot field value) :
      MemberText snapshot draft (draft.take snapshot field) (Utf8.encode name ++ 34 :: (gap ++ 58 :: value))

theorem readMember_memberText {snapshot : Snapshot} {draft after : Draft} {text rest : List UInt8}
    (member : MemberText snapshot draft after text) (ends : Ends rest) :
    readMember draft (text ++ rest) = .ok (after, rest) := by
  cases member with
  | @part name field gap value plain named new blank part =>
    have shape : Utf8.encode name ++ 34 :: (gap ++ 58 :: value) ++ rest
        = Utf8.encode name ++ 34 :: (gap ++ 58 :: (value ++ rest)) := by simp
    rw [shape, readMember, readText_plain plain]
    simp only [named, new, readColon_append blank]
    exact readField_partText part ends draft

/-- The members of an object, from after the opening quote of the first name to the
    closing brace. -/
inductive MembersText (snapshot : Snapshot) : Draft → Draft → List UInt8 → Prop
  | last {draft after : Draft} {text back : List UInt8} (member : MemberText snapshot draft after text)
      (blank : Blank back) : MembersText snapshot draft after (text ++ (back ++ [125]))
  | more {draft between after : Draft} {text back front later : List UInt8}
      (member : MemberText snapshot draft between text) (blank : Blank back) (blank' : Blank front)
      (members : MembersText snapshot between after later) :
      MembersText snapshot draft after (text ++ (back ++ 44 :: (front ++ 34 :: later)))

/-- The recursion of the reader of members, without the lengths that make it end. -/
theorem readMembers_eq (draft : Draft) (bytes : List UInt8) :
    readMembers draft bytes =
      match readMember draft bytes with
      | .error error => .error error
      | .ok (draft, rest) =>
        match nextInObject rest with
        | .error error => .error error
        | .ok (.behind rest) => draft.finish.map fun snapshot => (snapshot, rest)
        | .ok (.before rest) => readMembers draft rest := by
  rw [readMembers]
  split
  · next failed => rw [failed]
  · next after rest given =>
    rw [given]
    split
    · next failed => simp only [failed]
    · next next => simp only [next]
    · next next => simp only [next]

theorem nextInObject_closer {back : List UInt8} (blank : Blank back) (rest : List UInt8) :
    nextInObject (back ++ 125 :: rest) = .ok (.behind rest) := by
  rw [nextInObject, trim_append blank, trim_cons (by decide)]
  exact if_pos rfl

theorem nextInObject_comma {back front : List UInt8} (blank : Blank back) (blank' : Blank front) (rest : List UInt8) :
    nextInObject (back ++ 44 :: (front ++ 34 :: rest)) = .ok (.before rest) := by
  rw [nextInObject, trim_append blank, trim_cons (by decide)]
  simp only [trim_append blank', trim_cons (show isSpace 34 = false by decide)]
  rfl

/-- What the members say is what the draft holds at the end. -/
theorem readMembers_membersText {snapshot : Snapshot} {draft after : Draft} {text : List UInt8}
    (members : MembersText snapshot draft after text) (rest : List UInt8) :
    readMembers draft (text ++ rest) = after.finish.map fun snapshot => (snapshot, rest) := by
  induction members with
  | @last draft after text back member blank =>
    have ends : Ends (back ++ 125 :: rest) := ends_append blank (ends_cons.mpr (by decide))
    have shape : text ++ (back ++ [125]) ++ rest = text ++ (back ++ 125 :: rest) := by simp
    rw [shape, readMembers_eq, readMember_memberText member ends]
    simp only [nextInObject_closer blank]
  | @more draft between after text back front later member blank blank' members ih =>
    have ends : Ends (back ++ 44 :: (front ++ 34 :: (later ++ rest))) :=
      ends_append blank (ends_cons.mpr (by decide))
    have shape : text ++ (back ++ 44 :: (front ++ 34 :: later)) ++ rest
        = text ++ (back ++ 44 :: (front ++ 34 :: (later ++ rest))) := by simp
    rw [shape, readMembers_eq, readMember_memberText member ends]
    simp only [nextInObject_comma blank blank']
    exact ih

/-! ### What the writer makes -/

theorem itemsText_numerals (w : Word) (words : List Word) :
    ItemsText (w :: words) (Utf8.encode (numerals (w :: words)) ++ [93]) := by
  induction words generalizing w with
  | nil =>
    have single : Utf8.encode (numerals [w]) = wordBytes w := by simp [numerals, wordBytes, decimal]
    rw [single]
    exact .last blank_nil blank_nil
  | cons v words ih =>
    have shape : Utf8.encode (numerals (w :: v :: words)) = wordBytes w ++ 44 :: Utf8.encode (numerals (v :: words)) := by
      simp [numerals, wordBytes, decimal]
      rfl
    rw [shape, List.append_assoc]
    exact .more blank_nil blank_nil (ih v)

theorem listText_renderList (words : List Word) : ListText words (Utf8.encode (renderList words)) := by
  have shape : Utf8.encode (renderList words) = 91 :: (Utf8.encode (numerals words) ++ [93]) := by
    simp [renderList]
    rfl
  rw [shape]
  cases words with
  | nil => exact .empty blank_nil blank_nil
  | cons w words => exact .items blank_nil (itemsText_numerals w words)

/-- The draft that holds all parts of a snapshot. -/
def Draft.full (snapshot : Snapshot) : Draft :=
  ⟨some snapshot.pc, some snapshot.registers, some snapshot.stack, some snapshot.memory⟩

/-- The bytes of a member without its opening quote. -/
def memberBytes (field : Field) (value : List Char) : List UInt8 :=
  Utf8.encode field.name.toList ++ 34 :: 58 :: Utf8.encode value

theorem encode_member (field : Field) (value : List Char) :
    Utf8.encode (member field.name value) = 34 :: memberBytes field value := by
  simp only [member, memberBytes, List.cons_append, List.append_assoc, Utf8.encode_cons, Utf8.encode_append]
  rfl

theorem memberText_memberBytes {snapshot : Snapshot} {draft : Draft} {field : Field}
    (new : draft.has field = false) {value : List Char} (part : PartText snapshot field (Utf8.encode value)) :
    MemberText snapshot draft (draft.take snapshot field) (memberBytes field value) :=
  .part (plain_name field) (ofName?_name field) new blank_nil part

/-- The bytes of a snapshot are an object with all of its parts. -/
theorem bytes_eq (snapshot : Snapshot) :
    ∃ text, snapshot.bytes = 123 :: 34 :: text ∧ MembersText snapshot Draft.empty (Draft.full snapshot) text := by
  have pc : PartText snapshot .pc (Utf8.encode (Numeral.digits snapshot.pc.toNat)) := .pc blank_nil
  have registers := PartText.registers (listText_renderList snapshot.registers)
  have stack := PartText.stack (listText_renderList snapshot.stack)
  have memory := PartText.memory (listText_renderList snapshot.memory)
  refine ⟨_, ?_, .more (memberText_memberBytes rfl pc) blank_nil blank_nil
    (.more (memberText_memberBytes rfl registers) blank_nil blank_nil
      (.more (memberText_memberBytes rfl stack) blank_nil blank_nil
        (.last (memberText_memberBytes rfl memory) blank_nil)))⟩
  have joined : snapshot.render = '\x7b' :: (member Field.pc.name (Numeral.digits snapshot.pc.toNat)
      ++ ',' :: (member Field.registers.name (renderList snapshot.registers)
      ++ ',' :: (member Field.stack.name (renderList snapshot.stack)
      ++ ',' :: (member Field.memory.name (renderList snapshot.memory) ++ ['\x7d'])))) := by
    simp [render, Field.name]
  rw [bytes, joined]
  simp only [Utf8.encode_cons, Utf8.encode_append, encode_member]
  rfl

/-- The text of a snapshot is read as the snapshot. -/
theorem parse_bytes (snapshot : Snapshot) : parse snapshot.bytes = .ok snapshot := by
  obtain ⟨text, written, members⟩ := bytes_eq snapshot
  have read := readMembers_membersText members []
  rw [List.append_nil] at read
  have object : readObject (34 :: text) = .ok (snapshot, []) := by
    rw [readObject, openObject, trim_cons (by decide)]
    exact read
  have front : readFront snapshot.bytes = .ok (snapshot, []) := by
    rw [readFront, written, trim_cons (by decide)]
    exact object
  rw [parse, front]
  rfl

end WordMachine.Snapshot
