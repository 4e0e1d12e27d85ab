import WordMachine.Proofs.Snapshot.Parts

/-!
Objects with any members. An object is given as the list of its members, each with the
spaces in it (`objectText`); where a name is one of a part its value may be any value, and
also a text that is none but ends where a value would (`Occupant`). The reader goes from
draft to draft as the members say (`readMembers_eq_ok_iff_takesAll`), so it reads exactly
the snapshot whose parts the members give, each once, in any order and among any others
(`parse_objectText`).
-/
namespace WordMachine.Snapshot
open Json

/-! ### Values of parts -/

/-- A value with spaces around it. -/
def SpacedValue (text : List UInt8) : Prop :=
  ∃ front value back, Blank front ∧ Blank back ∧ ValueText value ∧ text = front ++ (value ++ back)

/-- What may stand in the place of the value of a part: a value, a text without any commas,
    brackets and closing braces, or anything between brackets in which no bracket is closed. -/
inductive Occupant : List UInt8 → Prop
  | value {text : List UInt8} : SpacedValue text → Occupant text
  | token {text : List UInt8} : (∀ b ∈ text, b ∉ ([44, 91, 93, 125] : List UInt8)) → Occupant text
  | bracketed {front inner back : List UInt8} :
      Blank front → 93 ∉ inner → Blank back → Occupant (front ++ 91 :: (inner ++ 93 :: back))

/-- A text with which neither a list nor an object goes on. -/
def Stray (text : List UInt8) : Prop := ∃ b more, trim text = b :: more ∧ b ∉ ([44, 125] : List UInt8)

theorem not_mem_of_blank {spaces : List UInt8} (blank : Blank spaces) {b : UInt8} (solid : isSpace b = false) :
    b ∉ spaces := by
  intro member
  rw [blank b member] at solid
  cases solid

theorem not_mem_wordBytes {w : Word} {b : UInt8} (other : isDigit b = false) : b ∉ wordBytes w := by
  intro member
  rw [isDigit_of_mem_decimal b member] at other
  cases other

/-- No number goes on with spaces and what may stand behind a member. -/
theorem ends_of_blank {spaces : List UInt8} {c : UInt8} (blank : Blank spaces) (closing : c = 44 ∨ c = 125)
    (more : List UInt8) : Ends (spaces ++ c :: more) :=
  ends_append blank (ends_cons.mpr (by rcases closing with rfl | rfl <;> decide))

theorem ItemsText.exists_inner {words : List Word} {text : List UInt8} (items : ItemsText words text) :
    ∃ inner, text = inner ++ [93] ∧ 93 ∉ inner := by
  have spaces {blanks : List UInt8} (blank : Blank blanks) : 93 ∉ blanks := not_mem_of_blank blank (by decide)
  have digits {w : Word} : 93 ∉ wordBytes w := not_mem_wordBytes (by decide)
  induction items with
  | @last before after w front back =>
    refine ⟨before ++ (wordBytes w ++ after), by simp, ?_⟩
    simp [spaces front, spaces back, digits]
  | @more before after text w words front back later ih =>
    obtain ⟨inner, rfl, out⟩ := ih
    refine ⟨before ++ (wordBytes w ++ (after ++ 44 :: inner)), by simp, ?_⟩
    simp [spaces front, spaces back, digits, out]

/-- No bracket is closed in a list before its end. -/
theorem Listed.exists_inner {words : List Word} {text : List UInt8} (listed : Listed words text) :
    ∃ inner, text = inner ++ [93] ∧ 93 ∉ inner := by
  cases listed with
  | empty blank => exact ⟨_, rfl, not_mem_of_blank blank (by decide)⟩
  | items items => exact items.exists_inner

theorem eq_of_first {b : UInt8} {front front' rest rest' : List UInt8} (out : b ∉ front) (out' : b ∉ front')
    (same : front ++ b :: rest = front' ++ b :: rest') : front = front' ∧ rest = rest' := by
  have cut {text more : List UInt8} (out : b ∉ text) : (text ++ b :: more).takeWhile (· != b) = text := by
    rw [List.takeWhile_append_of_pos, List.takeWhile_cons_of_neg (by simp), List.append_nil]
    intro c member
    have other : c ≠ b := by
      rintro rfl
      exact out member
    simpa using other
  have fronts : front = front' := by rw [← cut out, same, cut out']
  subst fronts
  exact ⟨rfl, (List.cons.inj (List.append_cancel_left same)).2⟩

theorem Spelled.pc_of_number {field : Field} {words : List Word} {text : List UInt8} (spelled : Spelled field words text)
    (number : NumberText text) : field = .pc := by
  cases spelled with
  | word => rfl
  | list _ _ =>
    obtain ⟨b, more, same, first⟩ := number.exists_cons
    obtain ⟨rfl, -⟩ := List.cons.inj same
    exact absurd first (by decide)

theorem Spelled.trim_append {field : Field} {words : List Word} {front text : List UInt8} (blank : Blank front)
    (spelled : Spelled field words text) (rest : List UInt8) : trim (front ++ (text ++ rest)) = text ++ rest := by
  rw [Snapshot.trim_append blank, spelled.valueText.trim_append]

section
variable {field : Field} {words : List Word} {text front inner back rest more : List UInt8} {c : UInt8}

theorem readPart_spacedValue (value : SpacedValue text) (closing : c = 44 ∨ c = 125)
    (read : readPart field (text ++ c :: more) = .ok (words, rest)) :
    ∃ back, rest = back ++ c :: more ∧ Blank back ∧ Holds field words text := by
  obtain ⟨front, shown, back, blank, blank', value, rfl⟩ := value
  obtain ⟨spaces, found, blank'', spelled, same, ends⟩ := readPart_eq_ok read
  have behind := ends_of_blank blank' closing more
  have values : shown ++ (back ++ c :: more) = found ++ rest := by
    have trimmed := congrArg trim same
    rwa [spelled.trim_append blank'', List.append_assoc, trim_append blank, List.append_assoc,
      value.trim_append] at trimmed
  obtain ⟨rfl, rfl⟩ := value.unique spelled.valueText (fun _ => behind)
    (fun number => ends (spelled.pc_of_number number)) values
  exact ⟨back, rfl, blank', front, shown, back, blank, blank', spelled, rfl⟩

/-- A token is read only up to its first byte that is no digit. -/
theorem readPart_token (token : ∀ b ∈ text, b ∉ ([44, 91, 93, 125] : List UInt8)) (closing : c = 44 ∨ c = 125)
    (read : readPart field (text ++ c :: more) = .ok (words, rest)) :
    ∃ back, rest = back ++ c :: more ∧ (Blank back ∧ Holds field words text ∨ Stray back) := by
  have solid : isSpace c = false := by rcases closing with rfl | rfl <;> decide
  obtain ⟨front, found, blank, spelled, same, -⟩ := readPart_eq_ok read
  have trimmed := spelled.trim_append blank rest
  rw [← same] at trimmed
  cases spelled with
  | @word w =>
    obtain ⟨back, rfl, rfl⟩ : ∃ back, text = front ++ (wordBytes w ++ back) ∧ rest = back ++ c :: more := by
      rw [← List.append_assoc] at same
      rcases List.append_eq_append_iff.mp same with ⟨inside, split, behind⟩ | ⟨inside, split, behind⟩
      · rcases inside with _ | ⟨b, inside⟩
        · exact ⟨[], by simpa using split.symm, behind.symm⟩
        · obtain ⟨rfl, -⟩ := List.cons.inj behind
          have member : c ∈ front ++ wordBytes w := by simp [split]
          have digit : isDigit c = false := by rcases closing with rfl | rfl <;> decide
          rcases List.mem_append.mp member with space | number
          · exact absurd space (not_mem_of_blank blank solid)
          · exact absurd number (not_mem_wordBytes digit)
      · exact ⟨inside, by simpa using split, behind⟩
    refine ⟨back, rfl, ?_⟩
    rcases kept : trim back with _ | ⟨b, later⟩
    · have spaces := trim_eq_nil_iff.mp kept
      exact .inl ⟨spaces, front, wordBytes w, back, blank, spaces, .word, rfl⟩
    · have member : b ∈ back := mem_of_trim kept
      have other := token b (by simp [member])
      simp only [List.mem_cons, List.not_mem_nil, or_false, not_or] at other
      exact .inr ⟨b, later, kept, by simp [other]⟩
  | list _ _ =>
    exfalso
    rcases kept : trim text with _ | ⟨b, later⟩
    · rw [trim_append (trim_eq_nil_iff.mp kept), trim_cons solid] at trimmed
      obtain ⟨rfl, -⟩ := List.cons.inj trimmed
      exact absurd closing (by decide)
    · rw [trim_front kept] at trimmed
      obtain ⟨rfl, -⟩ := List.cons.inj trimmed
      have member : 91 ∈ text := mem_of_trim kept
      exact token 91 member (by decide)

theorem readPart_bracketed (blank : Blank front) (out : 93 ∉ inner) (blank' : Blank back)
    (read : readPart field (front ++ 91 :: (inner ++ 93 :: back) ++ c :: more) = .ok (words, rest)) :
    rest = back ++ c :: more ∧ Holds field words (front ++ 91 :: (inner ++ 93 :: back)) := by
  obtain ⟨spaces, found, blank'', spelled, same, -⟩ := readPart_eq_ok read
  have trimmed := spelled.trim_append blank'' rest
  rw [← same, List.append_assoc, trim_append blank, List.cons_append, trim_cons (by decide), List.append_assoc] at trimmed
  cases spelled with
  | @word w =>
    obtain ⟨b, digits, digit, same, -⟩ := trim_wordBytes w []
    rw [same] at trimmed
    obtain ⟨rfl, -⟩ := List.cons.inj trimmed
    exact absurd digit (by decide)
  | list other listed =>
    obtain ⟨inner', rfl, out'⟩ := listed.exists_inner
    have inside : inner ++ 93 :: (back ++ c :: more) = inner' ++ 93 :: rest := by simpa using trimmed
    obtain ⟨rfl, rfl⟩ := eq_of_first out out' inside
    exact ⟨rfl, front, 91 :: (inner ++ [93]), back, blank, blank', .list other listed, by simp⟩

/-- Where a part is read from what stands in its place, either it is all that stands there,
    or something is left with which the object does not go on. -/
theorem readPart_occupant (occupant : Occupant text) (closing : c = 44 ∨ c = 125)
    (read : readPart field (text ++ c :: more) = .ok (words, rest)) :
    ∃ back, rest = back ++ c :: more ∧ (Blank back ∧ Holds field words text ∨ Stray back) := by
  cases occupant with
  | value value =>
    obtain ⟨back, same, blank, held⟩ := readPart_spacedValue value closing read
    exact ⟨back, same, .inl ⟨blank, held⟩⟩
  | token token => exact readPart_token token closing read
  | bracketed blank out blank' =>
    obtain ⟨same, held⟩ := readPart_bracketed blank out blank' read
    exact ⟨_, same, .inl ⟨blank', held⟩⟩

theorem Holds.spacedValue (held : Holds field words text) : SpacedValue text := by
  obtain ⟨front, shown, back, blank, blank', spelled, rfl⟩ := held
  exact ⟨front, shown, back, blank, blank', spelled.valueText, rfl⟩

/-- A text that is the one of a part is read as the part. -/
theorem readPart_holds (held : Holds field words text) (closing : c = 44 ∨ c = 125) (more : List UInt8) :
    ∃ back, Blank back ∧ readPart field (text ++ c :: more) = .ok (words, back ++ c :: more) := by
  obtain ⟨front, shown, back, blank, blank', spelled, rfl⟩ := held
  have behind := ends_of_blank blank' closing more
  refine ⟨back, blank', ?_⟩
  rw [List.append_assoc, List.append_assoc]
  exact readPart_spelled blank spelled fun _ => behind

end

/-- What the writer makes of a list is the text of a part. -/
theorem holds_renderList {field : Field} (other : field ≠ .pc) (words : List Word) :
    Holds field words (Utf8.encode (renderList words)) := by
  obtain ⟨front, inner, blank, listed, spelled⟩ := listText_iff.mp (listText_renderList words)
  exact ⟨front, 91 :: inner, [], blank, blank_nil, .list other listed, by rw [spelled, List.append_nil]⟩

/-! ### Members -/

/-- A member of an object. -/
structure Member where
  /-- The spaces before the name. -/
  before : List UInt8
  name : List Char
  /-- The spaces before the colon. -/
  gap : List UInt8
  /-- The value with the spaces around it. -/
  value : List UInt8

namespace Member

/-- A member after the opening quote of its name. -/
def tail (member : Member) : List UInt8 := Utf8.encode member.name ++ 34 :: (member.gap ++ 58 :: member.value)

def bytes (member : Member) : List UInt8 := member.before ++ 34 :: member.tail

/-- A member with a name that has no escapes. A name of no part has a value, and the name of
    a part may also have a text that is none. -/
structure WellFormed (member : Member) : Prop where
  before : Blank member.before
  plain : Plain member.name
  gap : Blank member.gap
  value : Field.ofName? member.name = none → SpacedValue member.value
  occupant : ∀ field, Field.ofName? member.name = some field → Occupant member.value

theorem WellFormed.of_holds {member : Member} {field : Field} {words : List Word} (before : Blank member.before)
    (plain : Plain member.name) (gap : Blank member.gap) (held : Holds field words member.value) : member.WellFormed :=
  ⟨before, plain, gap, fun _ => held.spacedValue, fun _ _ => .value held.spacedValue⟩

end Member

/-- An object with the given members, with spaces around its braces. -/
def objectText (front inside back : List UInt8) (members : List Member) : List UInt8 :=
  front ++ 123 :: (inside ++ (commas (members.map Member.bytes) ++ 125 :: back))

/-- What a member makes of a draft: a part that is new goes into it, and a member of another
    name leaves it as it is. -/
inductive Takes (draft : Draft) (member : Member) : Draft → Prop
  | other : Field.ofName? member.name = none → Takes draft member draft
  | part {field : Field} {words : List Word} : Field.ofName? member.name = some field → draft.part field = none →
      Holds field words member.value → Takes draft member (draft.put field words)

/-- What members make of a draft, one after the other. -/
inductive TakesAll : Draft → List Member → Draft → Prop
  | nil {draft : Draft} : TakesAll draft [] draft
  | cons {draft between after : Draft} {member : Member} {members : List Member} : Takes draft member between →
      TakesAll between members after → TakesAll draft (member :: members) after

theorem takesAll_cons {draft after : Draft} {member : Member} {members : List Member} :
    TakesAll draft (member :: members) after ↔ ∃ between, Takes draft member between ∧ TakesAll between members after :=
  ⟨fun (.cons takes later) => ⟨_, takes, later⟩, fun ⟨_, takes, later⟩ => .cons takes later⟩

theorem nextInObject_stray {back : List UInt8} (stray : Stray back) (more : List UInt8) :
    nextInObject (back ++ more) = .error .expectedCommaOrBrace := by
  obtain ⟨b, rest, trimmed, other⟩ := stray
  simp only [List.mem_cons, List.not_mem_nil, or_false, not_or] at other
  rw [nextInObject, trim_front trimmed more]
  simp only [if_neg other.1, if_neg other.2]

section
variable {draft after : Draft} {member : Member} {more rest : List UInt8} {c : UInt8}

theorem Member.tail_append (member : Member) (more : List UInt8) : member.tail ++ more
    = Utf8.encode member.name ++ 34 :: (member.gap ++ 58 :: (member.value ++ more)) := by
  simp [tail]

theorem skipValue_spacedValue {text : List UInt8} (value : SpacedValue text) (closing : c = 44 ∨ c = 125)
    (more : List UInt8) : ∃ back, Blank back ∧ skipValue (text ++ c :: more) = .ok (back ++ c :: more) := by
  obtain ⟨front, shown, back, blank, blank', value, rfl⟩ := value
  have behind := ends_of_blank blank' closing more
  refine ⟨back, blank', ?_⟩
  rw [skipValue, ← skipWithin_trim, List.append_assoc, trim_append blank, skipWithin_trim, List.append_assoc]
  exact skipValue_valueText value fun _ => behind

theorem readMember_of_takes (wellFormed : member.WellFormed) (closing : c = 44 ∨ c = 125)
    (takes : Takes draft member after) :
    ∃ back, Blank back ∧ readMember draft (member.tail ++ c :: more) = .ok (after, back ++ c :: more) := by
  rw [member.tail_append, readMember, readText_plain wellFormed.plain]
  cases takes with
  | other unknown =>
    obtain ⟨back, blank, skipped⟩ := skipValue_spacedValue (wellFormed.value unknown) closing more
    refine ⟨back, blank, ?_⟩
    simp only [unknown, readColon_append wellFormed.gap, skipped]
    rfl
  | part named new held =>
    obtain ⟨back, blank, read⟩ := readPart_holds held closing more
    refine ⟨back, blank, ?_⟩
    simp only [named, Draft.has_iff.mpr new, readColon_append wellFormed.gap, readField_eq, read]
    rfl

theorem takes_of_readMember (wellFormed : member.WellFormed) (closing : c = 44 ∨ c = 125)
    (read : readMember draft (member.tail ++ c :: more) = .ok (after, rest)) :
    ∃ back, rest = back ++ c :: more ∧ (Blank back ∧ Takes draft member after ∨ Stray back) := by
  rw [member.tail_append, readMember, readText_plain wellFormed.plain] at read
  rcases named : Field.ofName? member.name with _ | field
  · obtain ⟨back, blank, skipped⟩ := skipValue_spacedValue (wellFormed.value named) closing more
    simp only [named, readColon_append wellFormed.gap, skipped] at read
    cases read
    exact ⟨back, rfl, .inl ⟨blank, .other named⟩⟩
  · rcases new : draft.part field with _ | words
    · simp only [named, Draft.has_iff.mpr new, readColon_append wellFormed.gap, readField_eq] at read
      rcases given : readPart field (member.value ++ c :: more) with error | ⟨words, rest⟩
      · rw [given] at read
        cases read
      · rw [given] at read
        cases read
        obtain ⟨back, same, ⟨blank, held⟩ | stray⟩ := readPart_occupant (wellFormed.occupant field named) closing given
        · exact ⟨back, same, .inl ⟨blank, .part named new held⟩⟩
        · exact ⟨back, same, .inr stray⟩
    · have old : draft.has field = true := by
        simp [← Bool.not_eq_false, Draft.has_iff, new]
      simp only [named, old] at read
      cases read

theorem nextInObject_blank {back : List UInt8} (blank : Blank back) (more : List UInt8) :
    nextInObject (back ++ more) = nextInObject more := by
  rw [nextInObject, nextInObject, trim_append blank]

/-- The reader takes a member into the draft and goes on with what follows it. -/
theorem readMembers_eq_ok_iff_takes (wellFormed : member.WellFormed) (closing : c = 44 ∨ c = 125) {snapshot : Snapshot} :
    readMembers draft (member.tail ++ c :: more) = .ok (snapshot, rest) ↔ ∃ between, Takes draft member between ∧
      (nextInObject (c :: more) = .ok (.behind rest) ∧ between.finish = .ok snapshot ∨
        ∃ later, nextInObject (c :: more) = .ok (.before later) ∧ readMembers between later = .ok (snapshot, rest)) := by
  rw [readMembers_eq_ok_iff]
  constructor
  · rintro ⟨between, left, first, next⟩
    obtain ⟨back, rfl, ⟨blank, takes⟩ | stray⟩ := takes_of_readMember wellFormed closing first
    · rw [nextInObject_blank blank] at next
      exact ⟨between, takes, next⟩
    · rw [nextInObject_stray stray] at next
      rcases next with ⟨next, -⟩ | ⟨later, next, -⟩ <;> cases next
  · rintro ⟨between, takes, next⟩
    obtain ⟨back, blank, first⟩ := readMember_of_takes wellFormed closing takes
    refine ⟨between, _, first, ?_⟩
    rw [nextInObject_blank blank]
    exact next

end

/-- What follows a member in an object. -/
def following (back : List UInt8) : List Member → List UInt8
  | [] => 125 :: back
  | member :: members => 44 :: (member.bytes ++ following back members)

theorem commas_bytes (back : List UInt8) (member : Member) (members : List Member) :
    commas ((member :: members).map Member.bytes) ++ 125 :: back = member.bytes ++ following back members := by
  induction members generalizing member with
  | nil => rw [List.map_singleton, commas_singleton, following]
  | cons second members ih =>
    rw [List.map_cons, List.map_cons, commas_cons_cons, List.append_assoc, List.cons_append, ← List.map_cons, ih second,
      following]

/-- The members of an object are read as they go into the draft. -/
theorem readMembers_eq_ok_iff_takesAll {draft : Draft} {member : Member} {members : List Member}
    (wellFormed : ∀ m ∈ member :: members, m.WellFormed) {snapshot : Snapshot} {back rest : List UInt8} :
    readMembers draft (member.tail ++ following back members) = .ok (snapshot, rest) ↔
      ∃ after, TakesAll draft (member :: members) after ∧ after.finish = .ok snapshot ∧ rest = back := by
  induction members generalizing draft member with
  | nil =>
    rw [following, readMembers_eq_ok_iff_takes (wellFormed member List.mem_cons_self) (.inr rfl)]
    have closed : nextInObject (125 :: back) = .ok (.behind back) := nextInObject_closer blank_nil back
    simp only [closed]
    constructor
    · rintro ⟨between, takes, ⟨same, finished⟩ | ⟨_, same, -⟩⟩
      · cases same
        exact ⟨between, .cons takes .nil, finished, rfl⟩
      · cases same
    · rintro ⟨after, takesAll, finished, rfl⟩
      obtain ⟨between, takes, later⟩ := takesAll_cons.mp takesAll
      cases later
      exact ⟨after, takes, .inl ⟨rfl, finished⟩⟩
  | cons second members ih =>
    have later := fun m member' => wellFormed m (List.mem_cons_of_mem member member')
    have shape : following back (second :: members)
        = 44 :: (second.before ++ 34 :: (second.tail ++ following back members)) := by
      simp [following, Member.bytes]
    have goes : nextInObject (44 :: (second.before ++ 34 :: (second.tail ++ following back members)))
        = .ok (.before (second.tail ++ following back members)) :=
      nextInObject_comma blank_nil (later second List.mem_cons_self).before _
    rw [shape, readMembers_eq_ok_iff_takes (wellFormed member List.mem_cons_self) (.inl rfl)]
    simp only [goes]
    constructor
    · rintro ⟨between, takes, ⟨same, -⟩ | ⟨_, same, read⟩⟩
      · cases same
      · cases same
        obtain ⟨after, takesAll, done⟩ := (ih later).mp read
        exact ⟨after, .cons takes takesAll, done⟩
    · rintro ⟨after, takesAll, done⟩
      obtain ⟨between, takes, takesAll⟩ := takesAll_cons.mp takesAll
      exact ⟨between, takes, .inr ⟨_, rfl, (ih later).mpr ⟨after, takesAll, done⟩⟩⟩

/-! ### What the members give -/

/-- The members with a name of a part. -/
def membersOf (field : Field) (members : List Member) : List Member :=
  members.filter fun member => Field.ofName? member.name = some field

theorem membersOf_cons_of_some {field : Field} {member : Member} (named : Field.ofName? member.name = some field)
    (members : List Member) : membersOf field (member :: members) = member :: membersOf field members :=
  List.filter_cons_of_pos (by simpa using named)

theorem membersOf_cons_of_ne {field : Field} {member : Member} (other : Field.ofName? member.name ≠ some field)
    (members : List Member) : membersOf field (member :: members) = membersOf field members :=
  List.filter_cons_of_neg (by simpa using other)

/-- The members give a part once to a draft without it, or not at all. -/
def Gives (field : Field) (members : List Member) (before after : Option (List Word)) : Prop :=
  membersOf field members = [] ∧ after = before ∨
    before = none ∧ ∃ member words, membersOf field members = [member] ∧ Holds field words member.value ∧
      after = some words

theorem Draft.eq_of_part {draft draft' : Draft} (same : ∀ field, draft.part field = draft'.part field) :
    draft = draft' := by
  obtain ⟨pc, registers, stack, memory⟩ := draft
  obtain ⟨pc', registers', stack', memory'⟩ := draft'
  obtain rfl : pc = pc' := by
    have counters : pc.map (fun w => [w]) = pc'.map (fun w => [w]) := same .pc
    exact Option.map_injective (fun w w' => List.singleton_inj.mp) counters
  obtain rfl : registers = registers' := same .registers
  obtain rfl : stack = stack' := same .stack
  obtain rfl : memory = memory' := same .memory
  rfl

theorem gives_of_takesAll {draft after : Draft} {members : List Member} (takesAll : TakesAll draft members after)
    (field : Field) : Gives field members (draft.part field) (after.part field) := by
  induction takesAll with
  | nil => exact .inl ⟨rfl, rfl⟩
  | @cons draft between after member members takes later ih =>
    cases takes with
    | other unknown =>
      rw [Gives, membersOf_cons_of_ne (by rw [unknown]; nofun)]
      exact ih
    | @part given words named new held =>
      by_cases same : field = given
      · subst same
        rw [held.part_put] at ih
        rcases ih with ⟨none, kept⟩ | ⟨missing, -⟩
        · exact .inr ⟨new, member, words, by rw [membersOf_cons_of_some named, none], held, kept⟩
        · cases missing
      · rw [Draft.part_put_of_ne same] at ih
        rw [Gives, membersOf_cons_of_ne (by rw [named]; exact fun equal => same (Option.some.inj equal).symm)]
        exact ih

theorem takesAll_of_gives {draft after : Draft} {members : List Member}
    (gives : ∀ field, Gives field members (draft.part field) (after.part field)) : TakesAll draft members after := by
  induction members generalizing draft with
  | nil =>
    have same : after = draft := by
      refine Draft.eq_of_part fun field => ?_
      rcases gives field with ⟨-, kept⟩ | ⟨-, _, _, some, -⟩
      · exact kept
      · cases some
    subst same
    exact .nil
  | cons member members ih =>
    rcases named : Field.ofName? member.name with _ | given
    · refine .cons (.other named) (ih fun field => ?_)
      have before := gives field
      rwa [Gives, membersOf_cons_of_ne (by rw [named]; nofun)] at before
    · rcases gives given with ⟨none, -⟩ | ⟨new, only, words, single, held, kept⟩
      · rw [membersOf_cons_of_some named] at none
        cases none
      · rw [membersOf_cons_of_some named] at single
        obtain ⟨rfl, none⟩ := List.cons.inj single
        refine .cons (.part named new held) (ih fun field => ?_)
        by_cases same : field = given
        · subst same
          exact .inl ⟨none, by rw [kept, held.part_put]⟩
        · have before := gives field
          rw [Gives, membersOf_cons_of_ne (by rw [named]; exact fun equal => same (Option.some.inj equal).symm)] at before
          rwa [Draft.part_put_of_ne same]

/-- The members give all parts of a snapshot, each once; only an empty stack may be left out. -/
def Renders (snapshot : Snapshot) (members : List Member) : Prop :=
  ∀ field, (field = .stack ∧ membersOf field members = [] ∧ snapshot.stack = []) ∨
    ∃ member, membersOf field members = [member] ∧ Holds field (snapshot.part field) member.value

theorem renders_iff {snapshot : Snapshot} {members : List Member} :
    Renders snapshot members ↔ ∃ after, TakesAll Draft.empty members after ∧ after.finish = .ok snapshot := by
  constructor
  · intro renders
    -- The draft has what is given, so all parts but a stack that is left out.
    obtain ⟨after, parts⟩ : ∃ after : Draft, ∀ field,
        after.part field = (membersOf field members).head?.map fun _ => snapshot.part field := by
      refine ⟨⟨(membersOf .pc members).head?.map fun _ => snapshot.pc,
        (membersOf .registers members).head?.map fun _ => snapshot.registers,
        (membersOf .stack members).head?.map fun _ => snapshot.stack,
        (membersOf .memory members).head?.map fun _ => snapshot.memory⟩, ?_⟩
      rintro (_ | _ | _ | _)
      · exact Option.map_map _ _ _
      · rfl
      · rfl
      · rfl
    refine ⟨after, takesAll_of_gives fun field => ?_, Draft.finish_eq_ok_iff.mpr fun field => ?_⟩
    · rw [Draft.part_empty, parts]
      rcases renders field with ⟨-, none, -⟩ | ⟨member, single, held⟩
      · exact .inl ⟨none, by rw [none]; rfl⟩
      · exact .inr ⟨rfl, member, _, single, held, by rw [single]; rfl⟩
    · rw [parts]
      rcases renders field with ⟨rfl, none, empty⟩ | ⟨member, single, -⟩
      · exact .inr ⟨rfl, by rw [none]; rfl, empty⟩
      · exact .inl (by rw [single]; rfl)
  · rintro ⟨after, takesAll, finished⟩ field
    have gives := gives_of_takesAll takesAll field
    rw [Draft.part_empty] at gives
    rcases Draft.finish_eq_ok_iff.mp finished field with present | ⟨stack, absent, empty⟩
    · rcases gives with ⟨-, kept⟩ | ⟨-, member, words, single, held, found⟩
      · rw [present] at kept
        cases kept
      · rw [present] at found
        cases found
        exact .inr ⟨member, single, held⟩
    · rcases gives with ⟨none, -⟩ | ⟨-, member, words, single, held, found⟩
      · subst stack
        exact .inl ⟨rfl, none, empty⟩
      · rw [absent] at found
        cases found

theorem parse_eq_ok_iff {bytes : List UInt8} {snapshot : Snapshot} :
    parse bytes = .ok snapshot ↔ ∃ rest, readFront bytes = .ok (snapshot, rest) ∧ Blank rest := by
  unfold parse
  constructor
  · intro read
    split at read
    · cases read
    · next found rest given =>
      split at read
      · next blank =>
        cases read
        exact ⟨rest, given, trim_eq_nil_iff.mp blank⟩
      · cases read
  · rintro ⟨rest, given, blank⟩
    rw [given]
    exact if_pos (trim_eq_nil_iff.mpr blank)

/-- An object is read as a snapshot if and only if its members render it. -/
theorem parse_objectText {front inside back : List UInt8} (blank : Blank front) (blank' : Blank inside)
    (blank'' : Blank back) {members : List Member} (wellFormed : ∀ m ∈ members, m.WellFormed) {snapshot : Snapshot} :
    parse (objectText front inside back members) = .ok snapshot ↔ Renders snapshot members := by
  have object : readFront (objectText front inside back members)
      = readObject (inside ++ (commas (members.map Member.bytes) ++ 125 :: back)) := by
    rw [readFront, objectText, trim_append blank, trim_cons (by decide)]
    rfl
  rw [parse_eq_ok_iff, object]
  cases members with
  | nil =>
    have nothing : readObject (inside ++ (commas ([].map Member.bytes) ++ 125 :: back))
        = .error (.missingField Field.pc.name) := by
      rw [readObject, openObject, trim_append blank']
      rfl
    rw [nothing]
    constructor
    · rintro ⟨_, read, -⟩
      cases read
    · intro renders
      rcases renders .pc with ⟨other, -⟩ | ⟨member, single, -⟩
      · cases other
      · cases single
  | cons member members =>
    have opened : readObject (inside ++ (commas ((member :: members).map Member.bytes) ++ 125 :: back))
        = readMembers Draft.empty (member.tail ++ following back members) := by
      have before := (wellFormed member List.mem_cons_self).before
      rw [commas_bytes, Member.bytes, List.append_assoc, readObject, openObject, trim_append blank',
        trim_append before, List.cons_append, trim_cons (by decide)]
      rfl
    rw [opened, renders_iff]
    simp only [readMembers_eq_ok_iff_takesAll wellFormed]
    constructor
    · rintro ⟨rest, ⟨after, takesAll, finished, -⟩, -⟩
      exact ⟨after, takesAll, finished⟩
    · rintro ⟨after, takesAll, finished⟩
      exact ⟨back, ⟨after, takesAll, finished, rfl⟩, blank''⟩

end WordMachine.Snapshot
