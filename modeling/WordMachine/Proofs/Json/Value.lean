import WordMachine.Proofs.Snapshot.Words

/-!
Well-formed JSON values, as texts. `ValueText` says which bytes are a value: a literal, a
number, a string, or a list or an object with its items, to any depth and with spaces
between the parts. The reader that keeps nothing passes over exactly such a text
(`skipValue_valueText`), so of the beginnings of a text at most one is a value that can
end there (`ValueText.unique`).
-/
namespace WordMachine.Json

open Snapshot

/-! ### Numbers -/

inductive FractionText : List UInt8 → Prop
  | absent : FractionText []
  | present {text : List UInt8} : DigitsText text → FractionText (46 :: text)

inductive ExponentText : List UInt8 → Prop
  | absent : ExponentText []
  | present {letter : UInt8} {sign text : List UInt8} : letter = 101 ∨ letter = 69 →
      sign = [] ∨ sign = [43] ∨ sign = [45] → DigitsText text → ExponentText (letter :: (sign ++ text))

inductive NumberText : List UInt8 → Prop
  | parts {sign whole fraction exponent : List UInt8} : sign = [] ∨ sign = [45] → WholeText whole →
      FractionText fraction → ExponentText exponent → NumberText (sign ++ (whole ++ (fraction ++ exponent)))

theorem scanFraction_append (ended : Error) {text rest : List UInt8} (fraction : FractionText text)
    (stops : Undigited rest) (point : rest.head? ≠ some 46) :
    ∃ found, Numeral.scanFraction ended (text ++ rest) = .ok (found, rest) := by
  cases fraction with
  | absent =>
    refine ⟨[], ?_⟩
    rw [List.nil_append, Numeral.scanFraction]
    rintro bytes rfl
    exact point rfl
  | present digits => exact ⟨_, someDigits_append ended digits stops⟩

theorem scanSign_append {sign text : List UInt8} (known : sign = [] ∨ sign = [43] ∨ sign = [45])
    (digits : DigitsText text) (rest : List UInt8) : (Numeral.scanSign (sign ++ text ++ rest)).2 = text ++ rest := by
  obtain ⟨b, more, rfl, digit⟩ := digits.exists_cons
  rcases known with rfl | rfl | rfl
  · rw [List.nil_append, List.cons_append, Numeral.scanSign]
    · rintro _ ⟨⟩
      exact absurd digit (by decide)
    · rintro _ ⟨⟩
      exact absurd digit (by decide)
  · rfl
  · rfl

theorem scanExponent_append (ended : Error) {text rest : List UInt8} (exponent : ExponentText text) (ends : Ends rest) :
    ∃ found, Numeral.scanExponent ended (text ++ rest) = .ok (found, rest) := by
  cases exponent with
  | absent =>
    refine ⟨none, ?_⟩
    rcases rest with _ | ⟨b, rest⟩
    · rfl
    · obtain ⟨-, -, small, capital⟩ := ends_cons.mp ends
      rw [List.nil_append, Numeral.scanExponent, if_neg (by simp [small, capital])]
  | @present letter sign text known signed digits =>
    refine ⟨some ⟨(Numeral.scanSign (sign ++ text ++ rest)).1, text⟩, ?_⟩
    rw [List.cons_append, Numeral.scanExponent, if_pos known, scanSign_append signed digits,
      someDigits_append ended digits ends.undigited]

/-- What comes after the whole part of a number is no digit, and what comes after its
    fraction is no decimal point. -/
theorem ExponentText.stops {text rest : List UInt8} (exponent : ExponentText text) (ends : Ends rest) :
    Undigited (text ++ rest) ∧ (text ++ rest).head? ≠ some 46 := by
  cases exponent with
  | absent =>
    refine ⟨ends.undigited, ?_⟩
    intro point
    exact (ends 46 point).2.1 rfl
  | present letter _ _ => rcases letter with rfl | rfl <;> exact ⟨by simp [Undigited]; decide, by simp⟩

theorem FractionText.stops {fraction rest : List UInt8} (shown : FractionText fraction) (stops : Undigited rest) :
    Undigited (fraction ++ rest) := by
  cases shown with
  | absent => exact stops
  | present _ => simp only [Undigited, List.cons_append, List.head?_cons, Option.mem_some_iff]; rintro _ rfl; rfl

theorem scanUnsigned_append (ended : Error) (negative : Bool) {whole fraction exponent rest : List UInt8}
    (front : WholeText whole) (middle : FractionText fraction) (back : ExponentText exponent) (ends : Ends rest) :
    ∃ numeral, Numeral.scanUnsigned ended negative (whole ++ (fraction ++ exponent) ++ rest) = .ok (numeral, rest) := by
  obtain ⟨stops, point⟩ := back.stops ends
  obtain ⟨found, second⟩ := scanFraction_append ended middle stops point
  obtain ⟨power, third⟩ := scanExponent_append ended back ends
  have first : someDigits ended (whole ++ (fraction ++ (exponent ++ rest)))
      = .ok (whole, fraction ++ (exponent ++ rest)) :=
    someDigits_append ended front.1 (middle.stops stops)
  refine ⟨⟨negative, whole, found, power⟩, ?_⟩
  rw [List.append_assoc, List.append_assoc, Numeral.scanUnsigned, first]
  split
  · next failed => cases failed
  · next zeros =>
    simp only [Except.ok.injEq, Prod.mk.injEq] at zeros
    cases front.2 _ zeros.1
  · next taken =>
    simp only [Except.ok.injEq, Prod.mk.injEq] at taken
    obtain ⟨rfl, rfl⟩ := taken
    simp only [second, third]

theorem scan_numberText (ended : Error) {text rest : List UInt8} (number : NumberText text) (ends : Ends rest) :
    ∃ numeral, Numeral.scan ended (text ++ rest) = .ok (numeral, rest) := by
  cases number with
  | @parts sign whole fraction exponent known front middle back =>
    rcases known with rfl | rfl
    · obtain ⟨numeral, read⟩ := scanUnsigned_append ended false front middle back ends
      refine ⟨numeral, ?_⟩
      obtain ⟨b, more, spelled, digit⟩ := front.1.exists_cons
      rw [List.nil_append, ← read, spelled, List.cons_append, List.cons_append, Numeral.scan]
      rintro _ ⟨⟩
      exact absurd digit (by decide)
    · obtain ⟨numeral, read⟩ := scanUnsigned_append ended true front middle back ends
      exact ⟨numeral, read⟩

/-- A number begins with a digit or a minus sign. -/
theorem NumberText.exists_cons {text : List UInt8} (number : NumberText text) :
    ∃ b more, text = b :: more ∧ (b = 45 ∨ isDigit b = true) := by
  cases number with
  | @parts sign whole fraction exponent known front middle back =>
    rcases known with rfl | rfl
    · obtain ⟨b, more, rfl, digit⟩ := front.1.exists_cons
      exact ⟨b, _, rfl, .inr digit⟩
    · exact ⟨45, _, rfl, .inl rfl⟩

/-- A number in decimal is a number. -/
theorem numberText_decimal (n : Nat) : NumberText (decimal n) := by
  have number := NumberText.parts (.inl rfl) (wholeText_decimal n) .absent .absent
  rwa [List.nil_append, List.append_nil, List.append_nil] at number

/-! ### Strings -/

/-- What stands between the quotes of a string: bytes that stand for themselves, and
    escapes. It is not asked for that the bytes are characters. -/
inductive ContentsText : List UInt8 → Prop
  | empty : ContentsText []
  | byte {b : UInt8} {text : List UInt8} : b ≠ 34 → b ≠ 92 → ¬ b < 32 → ContentsText text → ContentsText (b :: text)
  | letter {letter : UInt8} {text : List UInt8} : letter ∈ ([34, 92, 47, 98, 102, 110, 114, 116] : List UInt8) →
      ContentsText text → ContentsText (92 :: letter :: text)
  | number {digits text : List UInt8} : digits.length = 4 → (∀ d ∈ digits, (hexValue? d).isSome) →
      ContentsText text → ContentsText (92 :: 117 :: (digits ++ text))

theorem skipEscape_number {digits : List UInt8} (four : digits.length = 4) (hex : ∀ d ∈ digits, (hexValue? d).isSome)
    (rest : List UInt8) : skipEscape (117 :: (digits ++ rest)) = .ok rest := by
  match digits, four with
  | [a, b, c, d], _ =>
    simp only [List.mem_cons, List.not_mem_nil, or_false, forall_eq_or_imp, forall_eq, Option.isSome_iff_exists] at hex
    obtain ⟨⟨p, first⟩, ⟨q, second⟩, ⟨r, third⟩, ⟨s, fourth⟩⟩ := hex
    have letter : (escaped? 117).isSome = false := by decide
    have read : readHex ([a, b, c, d] ++ rest) = .ok (((p * 16 + q) * 16 + r) * 16 + s, rest) := by
      simp only [List.cons_append, List.nil_append, readHex, first, second, third, fourth]
    rw [skipEscape, if_neg (by simp [letter]), if_pos rfl, read]

/-- The recursion of the reader that passes over strings, without the lengths that make it end. -/
theorem skipText_escape (bytes : List UInt8) :
    skipText (92 :: bytes) = match skipEscape bytes with
      | .error error => .error error
      | .ok after => skipText after := by
  rw [skipText, if_neg (by decide), if_pos rfl]
  split
  · next failed => rw [failed]
  · next skipped => rw [skipped]

theorem skipText_contentsText {text : List UInt8} (contents : ContentsText text) (rest : List UInt8) :
    skipText (text ++ 34 :: rest) = .ok rest := by
  induction contents with
  | empty => rw [List.nil_append, skipText, if_pos rfl]
  | byte quote escape control _ ih => rw [List.cons_append, skipText, if_neg quote, if_neg escape, if_neg control, ih]
  | @letter letter text known _ ih =>
    have single : (escaped? letter).isSome = true := by
      have table : ([34, 92, 47, 98, 102, 110, 114, 116] : List UInt8).all (fun l => (escaped? l).isSome) = true := by
        decide
      exact List.all_eq_true.mp table letter known
    rw [List.cons_append, List.cons_append, skipText_escape, skipEscape, if_pos single]
    exact ih
  | @number digits text four hex _ ih =>
    rw [List.cons_append, List.cons_append, List.append_assoc, skipText_escape, skipEscape_number four hex]
    exact ih

/-! ### Values -/

/-- The bracket that opens a list or an object. -/
def Frame.opener : Frame → UInt8
  | list => 91
  | object => 123

/-- What stands before a value in a list or an object: spaces, and in an object a name
    and a colon. -/
inductive LeadText : Frame → List UInt8 → Prop
  | list {front : List UInt8} : Blank front → LeadText .list front
  | object {front name gap before : List UInt8} : Blank front → ContentsText name → Blank gap → Blank before →
      LeadText .object (front ++ 34 :: (name ++ 34 :: (gap ++ 58 :: before)))

/-- An item of a list or an object: a value with what stands before it, and spaces behind. -/
structure Item where
  lead : List UInt8
  value : List UInt8
  back : List UInt8

def Item.bytes (item : Item) : List UInt8 := item.lead ++ (item.value ++ item.back)

/-- Texts with commas between them. -/
def commas (texts : List (List UInt8)) : List UInt8 := [44].intercalate texts

theorem commas_singleton (text : List UInt8) : commas [text] = text := List.intercalate_singleton

theorem commas_cons_cons (first second : List UInt8) (later : List (List UInt8)) :
    commas (first :: second :: later) = first ++ 44 :: commas (second :: later) := by
  rw [commas, List.intercalate_cons_cons, List.append_assoc]
  rfl

/-- The text of a value. -/
inductive ValueText : List UInt8 → Prop
  | literal {text : List UInt8} : text ∈ [110 :: nullTail, 116 :: trueTail, 102 :: falseTail] → ValueText text
  | number {text : List UInt8} : NumberText text → ValueText text
  | text {contents : List UInt8} : ContentsText contents → ValueText (34 :: (contents ++ [34]))
  | empty {frame : Frame} {inside : List UInt8} : Blank inside → ValueText (frame.opener :: (inside ++ [frame.closer]))
  | items {frame : Frame} {first : Item} {later : List Item} :
      (∀ item ∈ first :: later, LeadText frame item.lead ∧ Blank item.back) →
      (∀ item ∈ first :: later, ValueText item.value) →
      ValueText (frame.opener :: (commas ((first :: later).map Item.bytes) ++ [frame.closer]))

theorem not_isSpace_opener (frame : Frame) : isSpace frame.opener = false := by cases frame <;> decide

theorem not_isSpace_closer (frame : Frame) : isSpace frame.closer = false := by cases frame <;> decide

/-- A value begins with no space, and with nothing that may stand behind a value. -/
theorem ValueText.exists_cons {value : List UInt8} (shown : ValueText value) :
    ∃ b more, value = b :: more ∧ isSpace b = false ∧ b ∉ ([44, 93, 125] : List UInt8) := by
  cases shown with
  | literal known =>
    simp only [List.mem_cons, List.not_mem_nil, or_false] at known
    rcases known with rfl | rfl | rfl <;> exact ⟨_, _, rfl, by decide⟩
  | text => exact ⟨_, _, rfl, by decide⟩
  | empty | items => exact ⟨_, _, rfl, not_isSpace_opener _, by cases ‹Frame› <;> decide⟩
  | number shown =>
    obtain ⟨b, more, rfl, minus | digit⟩ := shown.exists_cons
    · exact ⟨b, more, rfl, by rw [minus]; decide⟩
    · refine ⟨b, more, rfl, not_isSpace_of_isDigit digit, ?_⟩
      intro other
      simp only [List.mem_cons, List.not_mem_nil, or_false] at other
      rcases other with rfl | rfl | rfl <;> exact absurd digit (by decide)

theorem ValueText.trim_append {value : List UInt8} (shown : ValueText value) (rest : List UInt8) :
    trim (value ++ rest) = value ++ rest := by
  obtain ⟨b, more, rfl, solid, -⟩ := shown.exists_cons
  exact trim_cons solid _

/-! ### Passing over values -/

/-- The recursion of the reader that passes over values, without the lengths that make it end. -/
theorem skipWithin_eq (frames : List Frame) (bytes : List UInt8) :
    skipWithin frames bytes = match advance frames bytes with
      | .error error => .error error
      | .ok (.done rest) => .ok rest
      | .ok (.more frames rest) => skipWithin frames rest := by
  rw [skipWithin]
  split
  · next failed => rw [failed]
  · next done => rw [done]
  · next more => rw [more]

theorem skipWithin_trim (frames : List Frame) (bytes : List UInt8) :
    skipWithin frames (trim bytes) = skipWithin frames bytes := by
  have same : advance frames (trim bytes) = advance frames bytes := by rw [advance, advance, trim_trim]
  rw [skipWithin_eq, same, ← skipWithin_eq]

/-- What comes after the frames that are open behind a value. -/
def resume (frames : List Frame) (bytes : List UInt8) : Except Error (List UInt8) :=
  match unwind frames bytes with
  | .error error => .error error
  | .ok (.done rest) => .ok rest
  | .ok (.more frames rest) => skipWithin frames rest

/-- What comes after the next item of a frame and all that is open around it. -/
def skipItem (frame : Frame) (frames : List Frame) (bytes : List UInt8) : Except Error (List UInt8) :=
  match approach frame bytes with
  | .error error => .error error
  | .ok rest => skipWithin (frame :: frames) rest

theorem skipItem_trim (frame : Frame) (frames : List Frame) (bytes : List UInt8) :
    skipItem frame frames (trim bytes) = skipItem frame frames bytes := by
  cases frame with
  | list => exact skipWithin_trim _ _
  | object =>
    have same : skipName (trim bytes) = skipName bytes := by rw [skipName, skipName, trim_trim]
    simp only [skipItem, approach, same]

theorem skipItem_leadText {frame : Frame} {lead : List UInt8} (shown : LeadText frame lead) (frames : List Frame)
    (bytes : List UInt8) : skipItem frame frames (lead ++ bytes) = skipWithin (frame :: frames) bytes := by
  cases shown with
  | list blank =>
    simp only [skipItem, approach]
    rw [← skipWithin_trim, trim_append blank, skipWithin_trim]
  | @object front name gap before blank contents blank' blank'' =>
    have shape : front ++ 34 :: (name ++ 34 :: (gap ++ 58 :: before)) ++ bytes
        = front ++ 34 :: (name ++ 34 :: (gap ++ 58 :: (before ++ bytes))) := by simp
    have named : skipName (front ++ 34 :: (name ++ 34 :: (gap ++ 58 :: (before ++ bytes))))
        = .ok (before ++ bytes) := by
      rw [skipName, trim_append blank, trim_cons (by decide)]
      simp only [skipText_contentsText contents, readColon_append blank', if_true]
    simp only [shape, skipItem, approach, named]
    rw [← skipWithin_trim, trim_append blank'', skipWithin_trim]

theorem resume_comma {back : List UInt8} (blank : Blank back) (frame : Frame) (frames : List Frame)
    (bytes : List UInt8) : resume (frame :: frames) (back ++ 44 :: bytes) = skipItem frame frames bytes := by
  rw [resume, unwind, trim_append blank, trim_cons (by decide), skipItem]
  simp only [if_true]
  rcases approach frame bytes with error | rest <;> rfl

theorem resume_closer {back : List UInt8} (blank : Blank back) (frame : Frame) (frames : List Frame)
    (bytes : List UInt8) : resume (frame :: frames) (back ++ frame.closer :: bytes) = resume frames bytes := by
  have other : frame.closer ≠ 44 := by cases frame <;> decide
  rw [resume, unwind, trim_append blank, trim_cons (not_isSpace_closer frame)]
  simp only [if_neg other, if_true]
  rfl

theorem advance_opener (frame : Frame) (frames : List Frame) (bytes : List UInt8) :
    advance frames (frame.opener :: bytes) = enter frame frames bytes := by
  rw [advance, trim_cons (not_isSpace_opener frame)]
  cases frame <;> rfl

theorem skipWithin_opener_closer {inside : List UInt8} (blank : Blank inside) (frame : Frame) (frames : List Frame)
    (bytes : List UInt8) :
    skipWithin frames (frame.opener :: (inside ++ frame.closer :: bytes)) = resume frames bytes := by
  rw [skipWithin_eq, advance_opener, enter, trim_append blank, trim_cons (not_isSpace_closer frame)]
  simp only [if_true]
  rfl

theorem skipWithin_opener {frame : Frame} {b : UInt8} {bytes rest : List UInt8} (trimmed : trim bytes = b :: rest)
    (other : b ≠ frame.closer) (frames : List Frame) :
    skipWithin frames (frame.opener :: bytes) = skipItem frame frames bytes := by
  rw [skipWithin_eq, advance_opener, enter, trimmed, ← skipItem_trim, trimmed, skipItem]
  simp only [if_neg other]
  rcases approach frame (b :: rest) with error | rest <;> rfl

theorem skipWithin_scalar {more rest : List UInt8} {b : UInt8} (solid : isSpace b = false) (list : b ≠ 91)
    (object : b ≠ 123) (passed : skipScalar (b :: more) = .ok rest) (frames : List Frame) :
    skipWithin frames (b :: more) = resume frames rest := by
  have moved : advance frames (b :: more) = unwind frames rest := by
    rw [advance, trim_cons solid]
    split
    · next opened => exact absurd (List.cons.inj opened).1 list
    · next opened => exact absurd (List.cons.inj opened).1 object
    · simp only [passed]
  rw [skipWithin_eq, moved]
  rfl

theorem readLiteral_append (literal rest : List UInt8) : readLiteral literal (literal ++ rest) = .ok rest := by
  induction literal with
  | nil => rfl
  | cons b literal ih => rw [List.cons_append, readLiteral, if_pos rfl, ih]

theorem skipWithin_numberText {text rest : List UInt8} (number : NumberText text) (ends : Ends rest)
    (frames : List Frame) : skipWithin frames (text ++ rest) = resume frames rest := by
  obtain ⟨numeral, read⟩ := scan_numberText .invalidNumber number ends
  obtain ⟨b, more, rfl, first⟩ := number.exists_cons
  have solid : isSpace b = false := by
    rcases first with rfl | digit
    · decide
    · exact not_isSpace_of_isDigit digit
  have other : ∀ c ∈ ([91, 123, 110, 116, 102] : List UInt8), b ≠ c := by
    rintro c known rfl
    simp only [List.mem_cons, List.not_mem_nil, or_false] at known
    rcases known with rfl | rfl | rfl | rfl | rfl <;> exact absurd first (by decide)
  refine skipWithin_scalar solid (other 91 (by decide)) (other 123 (by decide)) ?_ frames
  rw [List.cons_append] at read
  rw [skipScalar, if_neg (other 110 (by decide)), if_neg (other 116 (by decide)), if_neg (other 102 (by decide)),
    if_pos first, List.append_eq, read]

/-- The items of a list or an object are passed over one after the other, with the list or
    the object open around each of them. -/
theorem skipItem_commas {frame : Frame} {first : Item} {later : List Item}
    (around : ∀ item ∈ first :: later, LeadText frame item.lead ∧ Blank item.back)
    (passed : ∀ item ∈ first :: later, ∀ frames rest, (NumberText item.value → Ends rest) →
      skipWithin frames (item.value ++ rest) = resume frames rest)
    (frames : List Frame) (rest : List UInt8) :
    skipItem frame frames (commas ((first :: later).map Item.bytes) ++ frame.closer :: rest)
      = resume frames rest := by
  obtain ⟨lead, blank⟩ := around first List.mem_cons_self
  induction later generalizing first with
  | nil =>
    have ends : Ends (first.back ++ frame.closer :: rest) :=
      ends_append blank (ends_cons.mpr (by cases frame <;> decide))
    have shape : commas ([first].map Item.bytes) ++ frame.closer :: rest
        = first.lead ++ (first.value ++ (first.back ++ frame.closer :: rest)) := by
      simp [commas_singleton, Item.bytes]
    rw [shape, skipItem_leadText lead, passed first List.mem_cons_self _ _ fun _ => ends, resume_closer blank]
  | cons second later ih =>
    have ends (text : List UInt8) : Ends (first.back ++ 44 :: text) := ends_append blank (ends_cons.mpr (by decide))
    have shape : commas ((first :: second :: later).map Item.bytes) ++ frame.closer :: rest
        = first.lead ++ (first.value ++ (first.back
            ++ 44 :: (commas ((second :: later).map Item.bytes) ++ frame.closer :: rest))) := by
      simp [commas_cons_cons, Item.bytes]
    have around' := fun item member => around item (List.mem_cons_of_mem first member)
    obtain ⟨lead', blank'⟩ := around' second List.mem_cons_self
    rw [shape, skipItem_leadText lead, passed first List.mem_cons_self _ _ fun _ => ends _, resume_comma blank]
    exact ih around' (fun item member => passed item (List.mem_cons_of_mem first member)) lead' blank'

/-- What stands in a list or an object does not begin as if there were nothing in it. -/
theorem trim_commas {frame : Frame} {first : Item} (lead : LeadText frame first.lead) (shown : ValueText first.value)
    (later : List Item) (rest : List UInt8) :
    ∃ b more, trim (commas ((first :: later).map Item.bytes) ++ rest) = b :: more ∧ b ≠ frame.closer := by
  obtain ⟨before, value, back⟩ := first
  obtain ⟨more, joined⟩ : ∃ more, commas ((⟨before, value, back⟩ :: later).map Item.bytes) ++ rest
      = before ++ (value ++ more) := by
    cases later with
    | nil => exact ⟨back ++ rest, by simp [commas_singleton, Item.bytes]⟩
    | cons second later =>
      exact ⟨back ++ 44 :: (commas ((second :: later).map Item.bytes) ++ rest),
        by simp [commas_cons_cons, Item.bytes]⟩
  rw [joined]
  cases lead with
  | list blank =>
    obtain ⟨b, inner, spelled, -, other⟩ := shown.exists_cons
    refine ⟨b, inner ++ more, ?_, ?_⟩
    · rw [trim_append blank, shown.trim_append, spelled, List.cons_append]
    · rintro rfl
      exact other (by decide)
  | object blank _ _ _ =>
    rw [List.append_eq, List.append_assoc, trim_append blank]
    exact ⟨34, _, rfl, by decide⟩

/-- A value is passed over, and what is open around it goes on behind it. Only a number
    has to be told from what follows. -/
theorem skipWithin_valueText {value : List UInt8} (shown : ValueText value) (frames : List Frame) {rest : List UInt8}
    (ends : NumberText value → Ends rest) : skipWithin frames (value ++ rest) = resume frames rest := by
  induction shown generalizing frames rest with
  | @literal text known =>
    simp only [List.mem_cons, List.not_mem_nil, or_false] at known
    rcases known with rfl | rfl | rfl
    · have passed : skipScalar (110 :: (nullTail ++ rest)) = .ok rest := readLiteral_append nullTail rest
      exact skipWithin_scalar (by decide) (by decide) (by decide) passed frames
    · have passed : skipScalar (116 :: (trueTail ++ rest)) = .ok rest := readLiteral_append trueTail rest
      exact skipWithin_scalar (by decide) (by decide) (by decide) passed frames
    · have passed : skipScalar (102 :: (falseTail ++ rest)) = .ok rest := readLiteral_append falseTail rest
      exact skipWithin_scalar (by decide) (by decide) (by decide) passed frames
  | number number => exact skipWithin_numberText number (ends number) frames
  | @text contents shown =>
    have passed : skipScalar (34 :: (contents ++ 34 :: rest)) = .ok rest := skipText_contentsText shown rest
    have shape : 34 :: (contents ++ [34]) ++ rest = 34 :: (contents ++ 34 :: rest) := by simp
    rw [shape]
    exact skipWithin_scalar (by decide) (by decide) (by decide) passed frames
  | @empty frame inside blank =>
    have shape : frame.opener :: (inside ++ [frame.closer]) ++ rest
        = frame.opener :: (inside ++ frame.closer :: rest) := by simp
    rw [shape, skipWithin_opener_closer blank]
  | @items frame first later around values ih =>
    have shape : frame.opener :: (commas ((first :: later).map Item.bytes) ++ [frame.closer]) ++ rest
        = frame.opener :: (commas ((first :: later).map Item.bytes) ++ frame.closer :: rest) := by simp
    obtain ⟨b, more, trimmed, other⟩ := trim_commas (around first List.mem_cons_self).1
      (values first List.mem_cons_self) later (frame.closer :: rest)
    rw [shape, skipWithin_opener trimmed other]
    exact skipItem_commas around (fun item member frames rest => ih item member frames) frames rest

/-- A value is passed over, whatever it is. -/
theorem skipValue_valueText {value rest : List UInt8} (shown : ValueText value) (ends : NumberText value → Ends rest) :
    skipValue (value ++ rest) = .ok rest := skipWithin_valueText shown [] ends

/-- A text begins with no more than one value that can end where it does. -/
theorem ValueText.unique {value value' rest rest' : List UInt8} (shown : ValueText value) (shown' : ValueText value')
    (ends : NumberText value → Ends rest) (ends' : NumberText value' → Ends rest')
    (same : value ++ rest = value' ++ rest') : value = value' ∧ rest = rest' := by
  have passed := skipValue_valueText shown ends
  rw [same, skipValue_valueText shown' ends', Except.ok.injEq] at passed
  subst passed
  exact ⟨List.append_cancel_right same, rfl⟩

end WordMachine.Json
