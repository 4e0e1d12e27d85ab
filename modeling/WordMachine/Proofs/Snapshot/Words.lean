import WordMachine.Proofs.Json.Decimal
import WordMachine.Snapshot.Reader

/-!
Lists of words in the text of a snapshot. `ItemsText` and `ListText` say which texts
stand for a list: decimals with commas between them, and spaces wherever the format
lets them stand. The reader finds the words of every such text, and stops where the
text does (`readWords_listText`).
-/
namespace WordMachine.Snapshot
open Json

/-- Nothing but spaces, as the format knows them. -/
def Blank (spaces : List UInt8) : Prop := ∀ b ∈ spaces, isSpace b = true

instance (spaces : List UInt8) : Decidable (Blank spaces) :=
  decidable_of_iff (spaces.all isSpace = true) List.all_eq_true

theorem blank_nil : Blank [] := by simp [Blank]

theorem trim_append {spaces : List UInt8} (blank : Blank spaces) (bytes : List UInt8) :
    trim (spaces ++ bytes) = trim bytes :=
  List.dropWhile_append_of_pos blank

theorem trim_cons {b : UInt8} (solid : isSpace b = false) (bytes : List UInt8) : trim (b :: bytes) = b :: bytes :=
  List.dropWhile_cons_of_neg (by simp [solid])

theorem trim_trim (bytes : List UInt8) : trim (trim bytes) = trim bytes := by
  induction bytes with
  | nil => rfl
  | cons b bytes ih =>
    by_cases space : isSpace b = true
    · have dropped : trim (b :: bytes) = trim bytes := List.dropWhile_cons_of_pos space
      rw [dropped, ih]
    · have kept := trim_cons (by simpa using space) bytes
      rw [kept, kept]

theorem readColon_append {gap : List UInt8} (blank : Blank gap) (rest : List UInt8) :
    readColon (gap ++ 58 :: rest) = .ok rest := by
  rw [readColon, trim_append blank, trim_cons (by decide)]
  exact if_pos rfl

theorem not_isSpace_of_isDigit {b : UInt8} (digit : isDigit b = true) : isSpace b = false := by
  rw [isDigit_iff] at digit
  simp only [isSpace, Bool.or_eq_false_iff, beq_eq_false_iff_ne, ne_eq, ← UInt8.toNat_inj]
  simp
  omega

/-- A space ends a number as well as what comes after it does. -/
theorem ends_append {spaces rest : List UInt8} (blank : Blank spaces) (ends : Ends rest) : Ends (spaces ++ rest) := by
  rcases spaces with _ | ⟨b, spaces⟩
  · exact ends
  · have space : isSpace b = true := blank b List.mem_cons_self
    simp only [isSpace, Bool.or_eq_true, beq_iff_eq] at space
    rcases space with ((rfl | rfl) | rfl) | rfl <;> exact ends_cons.mpr (by decide)

/-! ### Single words -/

/-- The bytes of a word in decimal. -/
def wordBytes (w : Word) : List UInt8 := decimal w.toNat

theorem trim_wordBytes (w : Word) (rest : List UInt8) :
    ∃ b more, isDigit b = true ∧ wordBytes w = b :: more ∧ trim (wordBytes w ++ rest) = wordBytes w ++ rest := by
  obtain ⟨b, more, spelled, -⟩ := decimal_eq_cons w.toNat
  have member : b ∈ decimal w.toNat := by simp [spelled]
  have digit := isDigit_of_mem_decimal b member
  refine ⟨b, more, digit, spelled, ?_⟩
  rw [wordBytes, spelled]
  exact trim_cons (not_isSpace_of_isDigit digit) _

theorem readWord_trim (bytes : List UInt8) : readWord (trim bytes) = readWord bytes := by
  rw [readWord, readWord, trim_trim]

/-- A word in decimal is read as itself. -/
theorem readWord_wordBytes (w : Word) {rest : List UInt8} (ends : Ends rest) :
    readWord (wordBytes w ++ rest) = .ok (w, rest) := by
  obtain ⟨b, more, digit, spelled, trimmed⟩ := trim_wordBytes w rest
  have small : w.toNat < 65536 := w.toNat_lt
  have number := readNumber_decimal (n := w.toNat) (by omega) ends
  rw [← wordBytes, spelled] at number
  rw [readWord, trimmed, spelled]
  simp only [List.cons_append] at number ⊢
  rw [if_pos (Or.inr digit), number]
  simp only [wordOfNumber]
  rw [if_pos small, UInt16.ofNat_toNat]

/-! ### Lists -/

/-- The words of a list that is not empty, from the first one to the closing
    bracket. -/
inductive ItemsText : List Word → List UInt8 → Prop
  | last {before after : List UInt8} {w : Word} (front : Blank before) (back : Blank after) :
      ItemsText [w] (before ++ (wordBytes w ++ (after ++ [93])))
  | more {before after text : List UInt8} {w : Word} {words : List Word} (front : Blank before)
      (back : Blank after) (later : ItemsText words text) :
      ItemsText (w :: words) (before ++ (wordBytes w ++ (after ++ 44 :: text)))

/-- A list of words with its brackets. -/
inductive ListText : List Word → List UInt8 → Prop
  | empty {before inside : List UInt8} (front : Blank before) (within : Blank inside) :
      ListText [] (before ++ 91 :: (inside ++ [93]))
  | items {before text : List UInt8} {words : List Word} (front : Blank before) (items : ItemsText words text) :
      ListText words (before ++ 91 :: text)

/-- The recursion of the reader of items, without the lengths that make it end. -/
theorem readWordsAfter_eq (found : List Word) (bytes : List UInt8) :
    readWordsAfter found bytes =
      match readWord bytes with
      | .error error => .error error
      | .ok (word, rest) =>
        match nextInList rest with
        | .error error => .error error
        | .ok (.behind rest) => .ok ((word :: found).reverse, rest)
        | .ok (.before rest) => readWordsAfter (word :: found) rest := by
  rw [readWordsAfter]
  split
  · next failed => rw [failed]
  · next word rest given =>
    rw [given]
    split
    · next failed => simp only [failed]
    · next next => simp only [next]
    · next next => simp only [next]

/-- The items of a list begin with a digit. -/
theorem trim_itemsText {words : List Word} {text : List UInt8} (items : ItemsText words text) (rest : List UInt8) :
    ∃ b more, isDigit b = true ∧ trim (text ++ rest) = b :: more := by
  cases items with
  | @last before after w front back =>
    obtain ⟨b, more, digit, spelled, trimmed⟩ := trim_wordBytes w (after ++ [93] ++ rest)
    refine ⟨b, more ++ (after ++ [93] ++ rest), digit, ?_⟩
    rw [List.append_assoc, trim_append front, List.append_assoc, trimmed, spelled]
    rfl
  | @more before after text w words front back later =>
    obtain ⟨b, more, digit, spelled, trimmed⟩ := trim_wordBytes w (after ++ 44 :: text ++ rest)
    refine ⟨b, more ++ (after ++ 44 :: text ++ rest), digit, ?_⟩
    rw [List.append_assoc, trim_append front, List.append_assoc, trimmed, spelled]
    rfl

private theorem ends_closing (rest : List UInt8) : Ends (93 :: rest) := ends_cons.mpr (by decide)

private theorem ends_comma (rest : List UInt8) : Ends (44 :: rest) := ends_cons.mpr (by decide)

/-- The items of a list are read one after the other. -/
theorem readWordsAfter_itemsText {words : List Word} {text : List UInt8} (items : ItemsText words text)
    (found : List Word) (rest : List UInt8) :
    readWordsAfter found (trim (text ++ rest)) = .ok (found.reverse ++ words, rest) := by
  induction items generalizing found with
  | @last before after w front back =>
    have next : nextInList (after ++ 93 :: rest) = .ok (.behind rest) := by
      rw [nextInList, trim_append back, trim_cons (by decide)]
      rfl
    have shape : before ++ (wordBytes w ++ (after ++ [93])) ++ rest
        = before ++ (wordBytes w ++ (after ++ 93 :: rest)) := by simp
    rw [shape, trim_append front, readWordsAfter_eq, readWord_trim,
      readWord_wordBytes w (ends_append back (ends_closing rest))]
    simp only [next, List.reverse_cons]
  | @more before after text w words front back later ih =>
    obtain ⟨b, more, digit, trimmed⟩ := trim_itemsText later rest
    have other : b ≠ 93 := by
      rintro rfl
      exact absurd digit (by decide)
    have next : nextInList (after ++ 44 :: (text ++ rest)) = .ok (.before (trim (text ++ rest))) := by
      rw [nextInList, trim_append back, trim_cons (by decide)]
      simp only [trimmed]
      rw [if_neg (by decide), if_pos trivial, if_neg other]
    have shape : before ++ (wordBytes w ++ (after ++ 44 :: text)) ++ rest
        = before ++ (wordBytes w ++ (after ++ 44 :: (text ++ rest))) := by simp
    rw [shape, trim_append front, readWordsAfter_eq, readWord_trim,
      readWord_wordBytes w (ends_append back (ends_comma _))]
    simp only [next]
    rw [ih, List.reverse_cons, List.append_assoc]
    rfl

/-- A text of a list is read as the list. -/
theorem readWords_listText {words : List Word} {text : List UInt8} (list : ListText words text)
    (rest : List UInt8) : readWords (text ++ rest) = .ok (words, rest) := by
  cases list with
  | @empty before inside front within =>
    have opened : openList (inside ++ 93 :: rest) = .ok (.behind rest) := by
      rw [openList, trim_append within, trim_cons (by decide)]
      rfl
    have shape : before ++ 91 :: (inside ++ [93]) ++ rest = before ++ 91 :: (inside ++ 93 :: rest) := by simp
    rw [shape, readWords, trim_append front, trim_cons (by decide)]
    simp only [opened]
    rfl
  | @items before text _ front items =>
    obtain ⟨b, more, digit, trimmed⟩ := trim_itemsText items rest
    have other : b ≠ 93 := by
      rintro rfl
      exact absurd digit (by decide)
    have opened : openList (text ++ rest) = .ok (.before (trim (text ++ rest))) := by
      rw [openList, trimmed]
      exact if_neg other
    have shape : before ++ 91 :: text ++ rest = before ++ 91 :: (text ++ rest) := by simp
    rw [shape, readWords, trim_append front, trim_cons (by decide)]
    simp only [opened]
    exact readWordsAfter_itemsText items [] rest

end WordMachine.Snapshot
