import WordMachine.Proofs.Json.Value

/-!
What a reader has found was there. Where the reader of a word gives one, the text begins
with the word in decimal, and no digit, point or exponent goes on with it
(`readWord_eq_ok`); where the reader of a list gives one, the text begins with a list of
these words (`readWords_eq_ok`).
-/
namespace WordMachine.Json

/-! ### Numbers -/

theorem someDigits_eq_ok {ended : Error} {bytes found rest : List UInt8}
    (read : someDigits ended bytes = .ok (found, rest)) :
    DigitsText found ∧ bytes = found ++ rest ∧ Undigited rest := by
  have split : bytes.takeWhile isDigit = found ∧ bytes.dropWhile isDigit = rest ∧ found ≠ [] := by
    rcases bytes with _ | ⟨b, bytes⟩
    · cases read
    · unfold someDigits digits at read
      split at read
      · contradiction
      · cases read
      · next some =>
        simp only [Except.ok.injEq, Prod.mk.injEq] at read
        refine ⟨read.1, read.2, ?_⟩
        rintro rfl
        exact some _ b bytes (by rw [read.1]) rfl
  obtain ⟨rfl, rfl, some⟩ := split
  refine ⟨⟨some, fun b member => ?_⟩, List.takeWhile_append_dropWhile.symm, ?_⟩
  · exact List.all_eq_true.mp List.all_takeWhile b member
  · intro b first
    have stops := List.head?_dropWhile_not isDigit bytes
    rw [Option.mem_def.mp first] at stops
    exact stops

namespace Numeral

theorem scanUnsigned_eq_ok {ended : Error} {negative : Bool} {bytes rest : List UInt8} {numeral : Numeral}
    (read : scanUnsigned ended negative bytes = .ok (numeral, rest)) :
    numeral.negative = negative ∧ WholeText numeral.whole ∧ ∃ middle back,
      bytes = numeral.whole ++ middle ∧ Undigited middle ∧
      scanFraction ended middle = .ok (numeral.fraction, back) ∧
      scanExponent ended back = .ok (numeral.exponent, rest) := by
  unfold scanUnsigned at read
  split at read
  · cases read
  · cases read
  · next whole middle zero given =>
    obtain ⟨digits, rfl, stops⟩ := someDigits_eq_ok given
    split at read
    · cases read
    · next fraction back second =>
      split at read
      · cases read
      · next third =>
        cases read
        refine ⟨rfl, ⟨digits, ?_⟩, middle, back, rfl, stops, second, third⟩
        rintro more rfl
        rcases more with _ | ⟨b, more⟩
        · rfl
        · exact absurd rfl (zero b more)

theorem scanFraction_eq_nil {ended : Error} {bytes rest : List UInt8}
    (read : scanFraction ended bytes = .ok ([], rest)) : rest = bytes ∧ bytes.head? ≠ some 46 := by
  unfold scanFraction at read
  split at read
  · exact absurd rfl (someDigits_eq_ok read).1.1
  · next other =>
    cases read
    refine ⟨rfl, ?_⟩
    intro point
    obtain ⟨more, rfl⟩ := List.head?_eq_some_iff.mp point
    exact other more rfl

theorem scanExponent_eq_none {ended : Error} {bytes rest : List UInt8}
    (read : scanExponent ended bytes = .ok (none, rest)) :
    rest = bytes ∧ ∀ b ∈ bytes.head?, b ≠ 101 ∧ b ≠ 69 := by
  unfold scanExponent at read
  split at read
  · cases read
    exact ⟨rfl, by simp⟩
  · split at read
    · split at read <;> cases read
    · next other =>
      cases read
      exact ⟨rfl, by simpa using other⟩

/-- A number that is found to be nothing but digits is what stands there. -/
theorem scan_eq_ok_whole {ended : Error} {bytes whole rest : List UInt8}
    (read : scan ended bytes = .ok (⟨false, whole, [], none⟩, rest)) :
    WholeText whole ∧ bytes = whole ++ rest ∧ Ends rest := by
  unfold scan at read
  split at read
  · exact absurd (scanUnsigned_eq_ok read).1 Bool.false_ne_true
  · obtain ⟨-, shown, middle, back, rfl, stops, second, third⟩ := scanUnsigned_eq_ok read
    obtain ⟨rfl, point⟩ := scanFraction_eq_nil second
    obtain ⟨rfl, letter⟩ := scanExponent_eq_none third
    refine ⟨shown, rfl, ?_⟩
    intro b first
    refine ⟨stops b first, ?_, letter b first⟩
    rintro rfl
    exact point first

end Numeral

/-- Digits that go on with a number, as the number in decimal goes on. -/
theorem decimal_absorb {digits : List UInt8} (digital : ∀ b ∈ digits, isDigit b = true) {m n : Nat} (positive : 0 < m)
    (taken : absorb m digits = (n, digits.length)) : decimal n = decimal m ++ digits := by
  induction digits generalizing m with
  | nil =>
    cases taken
    exact (List.append_nil _).symm
  | cons b digits ih =>
    obtain ⟨low, high⟩ := isDigit_iff.mp (digital b List.mem_cons_self)
    have spelled : UInt8.ofNat (48 + (b.toNat - 48)) = b := by
      rw [Nat.add_sub_cancel' low, UInt8.ofNat_toNat]
    simp only [absorb] at taken
    split at taken
    · simp only [Prod.mk.injEq, List.length_cons, Nat.add_right_cancel_iff] at taken
      have later : absorb (10 * m + (b.toNat - 48)) digits = (n, digits.length) := Prod.ext taken.1 taken.2
      have tens : (10 * m + (b.toNat - 48)) / 10 = m := by omega
      have last : (10 * m + (b.toNat - 48)) % 10 = b.toNat - 48 := by omega
      rw [ih (fun c member => digital c (List.mem_cons_of_mem b member)) (by omega) later,
        decimal_of_le (by omega), tens, last, spelled, List.append_assoc]
      rfl
    · simp at taken

/-- Digits without a needless zero in front are the decimal of the number they stand for. -/
theorem decimal_of_absorb {whole : List UInt8} (shown : WholeText whole) {n : Nat}
    (taken : absorb 0 whole = (n, whole.length)) : decimal n = whole := by
  obtain ⟨⟨some, digital⟩, zero⟩ := shown
  obtain ⟨b, digits, rfl⟩ := List.exists_cons_of_ne_nil some
  obtain ⟨low, high⟩ := isDigit_iff.mp (digital b List.mem_cons_self)
  have first : decimal (b.toNat - 48) = [b] := by
    rw [decimal_of_lt (by omega), Nat.add_sub_cancel' low, UInt8.ofNat_toNat]
  have later : absorb (b.toNat - 48) digits = (n, digits.length) := by
    rw [absorb, Nat.mul_zero, Nat.zero_add, if_pos (by omega)] at taken
    simp only [Prod.mk.injEq, List.length_cons, Nat.add_right_cancel_iff] at taken
    exact Prod.ext taken.1 taken.2
  by_cases front : b = 48
  · subst front
    rw [zero digits rfl] at later ⊢
    cases later
    exact first
  · have positive : 0 < b.toNat - 48 := by
      have other : b.toNat ≠ 48 := fun same => front (UInt8.toNat_inj.mp same)
      omega
    rw [decimal_absorb (fun c member => digital c (List.mem_cons_of_mem b member)) positive later, first]
    rfl

theorem Numeral.value_eq_natural {numeral : Numeral} {n : Nat} (valued : numeral.value = .ok (.natural n)) :
    numeral = ⟨false, numeral.whole, [], none⟩ ∧ absorb 0 numeral.whole = (n, numeral.whole.length) := by
  obtain ⟨negative, whole, fraction, exponent⟩ := numeral
  unfold Numeral.value at valued
  split at valued
  next significand taken absorbed =>
  split at valued
  · next plain =>
    obtain ⟨rfl, rfl, rfl⟩ := plain
    split at valued
    · split at valued <;> cases valued
    · next sign =>
      cases valued
      obtain rfl : negative = false := by simpa using sign
      exact ⟨rfl, absorbed⟩
  · split at valued
    simp only at valued
    split at valued <;> cases valued

/-- A natural number that is read is there in decimal. -/
theorem readNumber_eq_natural {bytes rest : List UInt8} {n : Nat} (read : readNumber bytes = .ok (.natural n, rest)) :
    bytes = decimal n ++ rest ∧ Ends rest := by
  unfold readNumber at read
  split at read
  · cases read
  · next numeral after scanned =>
    split at read
    · cases read
    · next valued =>
      simp only [Except.ok.injEq, Prod.mk.injEq] at read
      obtain ⟨rfl, rfl⟩ := read
      obtain ⟨plain, absorbed⟩ := Numeral.value_eq_natural valued
      rw [plain] at scanned
      obtain ⟨shown, spelled, ends⟩ := Numeral.scan_eq_ok_whole scanned
      exact ⟨by rw [decimal_of_absorb shown absorbed, spelled], ends⟩

end WordMachine.Json

namespace WordMachine.Snapshot
open Json

/-! ### Words -/

theorem exists_blank (bytes : List UInt8) : ∃ front, Blank front ∧ bytes = front ++ trim bytes :=
  ⟨bytes.takeWhile isSpace, List.all_eq_true.mp List.all_takeWhile, List.takeWhile_append_dropWhile.symm⟩

theorem trim_eq_nil_iff {bytes : List UInt8} : trim bytes = [] ↔ Blank bytes := by
  obtain ⟨front, blank, split⟩ := exists_blank bytes
  constructor
  · intro nothing
    rw [nothing, List.append_nil] at split
    exact split ▸ blank
  · intro all
    have dropped := trim_append all []
    rwa [List.append_nil] at dropped

theorem solid_of_trim {bytes rest : List UInt8} {b : UInt8} (trimmed : trim bytes = b :: rest) : isSpace b = false := by
  have stops := List.head?_dropWhile_not isSpace bytes
  rw [← trim, trimmed] at stops
  exact stops

theorem trim_front {bytes rest : List UInt8} {b : UInt8} (trimmed : trim bytes = b :: rest) (cut : List UInt8) :
    trim (bytes ++ cut) = b :: (rest ++ cut) := by
  obtain ⟨front, blank, split⟩ := exists_blank bytes
  rw [split, trimmed, List.append_assoc, trim_append blank]
  exact trim_cons (solid_of_trim trimmed) _

theorem mem_of_trim {bytes rest : List UInt8} {b : UInt8} (trimmed : trim bytes = b :: rest) : b ∈ bytes := by
  obtain ⟨front, blank, split⟩ := exists_blank bytes
  rw [split, trimmed]
  exact List.mem_append_right _ List.mem_cons_self

theorem blank_append {front back : List UInt8} (blank : Blank front) (blank' : Blank back) : Blank (front ++ back) := by
  intro b member
  exact (List.mem_append.mp member).elim (blank b) (blank' b)

/-- A word that is read is there in decimal, and ends there. -/
theorem readWord_eq_ok {bytes rest : List UInt8} {w : Word} (read : readWord bytes = .ok (w, rest)) :
    ∃ front, Blank front ∧ bytes = front ++ (wordBytes w ++ rest) ∧ Ends rest := by
  obtain ⟨front, blank, split⟩ := exists_blank bytes
  unfold readWord at read
  split at read
  · cases read
  · next trimmed =>
    split at read
    · split at read
      · cases read
      · next number after given =>
        split at read
        · cases read
        · next word within =>
          cases read
          unfold wordOfNumber at within
          split at within
          · next n =>
            split at within
            · next small =>
              cases within
              obtain ⟨spelled, ends⟩ := readNumber_eq_natural given
              have same : (UInt16.ofNat n).toNat = n := by
                rw [UInt16.toNat_ofNat', Nat.mod_eq_of_lt small]
              refine ⟨front, blank, ?_, ends⟩
              rw [split, trimmed, spelled, wordBytes, same]
            · cases within
          · cases within
          · cases within
    · cases read

/-! ### Lists -/

theorem ItemsText.after {words : List Word} {front text : List UInt8} (items : ItemsText words text)
    (blank : Blank front) : ItemsText words (front ++ text) := by
  cases items with
  | last blank' back =>
    rw [← List.append_assoc]
    exact .last (blank_append blank blank') back
  | more blank' back later =>
    rw [← List.append_assoc]
    exact .more (blank_append blank blank') back later

theorem openList_eq_ok {bytes : List UInt8} {place : Place} (opened : openList bytes = .ok place) :
    ∃ inside, Blank inside ∧ ((∃ rest, place = .behind rest ∧ bytes = inside ++ 93 :: rest) ∨
      ∃ rest, place = .before rest ∧ bytes = inside ++ rest) := by
  obtain ⟨inside, blank, split⟩ := exists_blank bytes
  refine ⟨inside, blank, ?_⟩
  unfold openList at opened
  split at opened
  · cases opened
  · next trimmed =>
    rw [trimmed] at split
    split at opened
    · next closed =>
      cases opened
      exact .inl ⟨_, rfl, by rw [split, closed]⟩
    · cases opened
      exact .inr ⟨_, rfl, split⟩

theorem nextInList_eq_ok {bytes : List UInt8} {place : Place} (next : nextInList bytes = .ok place) :
    ∃ back, Blank back ∧ ((∃ rest, place = .behind rest ∧ bytes = back ++ 93 :: rest) ∨
      ∃ front rest, Blank front ∧ place = .before rest ∧ bytes = back ++ 44 :: (front ++ rest)) := by
  obtain ⟨back, blank, split⟩ := exists_blank bytes
  refine ⟨back, blank, ?_⟩
  unfold nextInList at next
  split at next
  · cases next
  · next b rest trimmed =>
    rw [trimmed] at split
    split at next
    · next closed =>
      cases next
      exact .inl ⟨rest, rfl, by rw [split, closed]⟩
    · split at next
      · next comma =>
        obtain ⟨front, blank', split'⟩ := exists_blank rest
        split at next
        · cases next
        · next inner =>
          split at next
          · cases next
          · cases next
            exact .inr ⟨front, _, blank', rfl, by rw [split, comma, ← inner, ← split']⟩
      · cases next

theorem readWordsAfter_eq_ok {found words : List Word} {bytes rest : List UInt8}
    (read : readWordsAfter found bytes = .ok (words, rest)) :
    ∃ later text, words = found.reverse ++ later ∧ bytes = text ++ rest ∧ ItemsText later text := by
  fun_induction readWordsAfter found bytes with
  | case1 => cases read
  | case2 => cases read
  | case3 found bytes w after given behind next =>
    cases read
    obtain ⟨front, blank, rfl, -⟩ := readWord_eq_ok given
    obtain ⟨back, blank', ⟨rest, same, rfl⟩ | ⟨_, _, _, same, _⟩⟩ := nextInList_eq_ok next
    · cases same
      refine ⟨[w], front ++ (wordBytes w ++ (back ++ [93])), List.reverse_cons, ?_, .last blank blank'⟩
      simp only [List.append_assoc, List.cons_append, List.nil_append]
    · cases same
  | case4 found bytes w after given before next ih =>
    obtain ⟨later, text, rfl, rfl, items⟩ := ih read
    obtain ⟨front, blank, rfl, -⟩ := readWord_eq_ok given
    obtain ⟨back, blank', ⟨_, same, _⟩ | ⟨front', _, blank'', same, rfl⟩⟩ := nextInList_eq_ok next
    · cases same
    · cases same
      refine ⟨w :: later, front ++ (wordBytes w ++ (back ++ 44 :: (front' ++ text))), ?_, ?_,
        .more blank blank' (items.after blank'')⟩
      · rw [List.reverse_cons, List.append_assoc]
        rfl
      · simp only [List.append_assoc, List.cons_append]

/-- A list of words after its opening bracket. -/
inductive Listed : List Word → List UInt8 → Prop
  | empty {inside : List UInt8} : Blank inside → Listed [] (inside ++ [93])
  | items {words : List Word} {text : List UInt8} : ItemsText words text → Listed words text

theorem listText_iff {words : List Word} {text : List UInt8} :
    ListText words text ↔ ∃ front inner, Blank front ∧ Listed words inner ∧ text = front ++ 91 :: inner := by
  constructor
  · rintro (⟨blank, inside⟩ | ⟨blank, items⟩)
    · exact ⟨_, _, blank, .empty inside, rfl⟩
    · exact ⟨_, _, blank, .items items, rfl⟩
  · rintro ⟨front, inner, blank, inside | items, rfl⟩
    · exact .empty blank inside
    · exact .items blank items

/-- A list of words that is read is there. -/
theorem readWords_eq_ok {bytes rest : List UInt8} {words : List Word} (read : readWords bytes = .ok (words, rest)) :
    ∃ front text, Blank front ∧ Listed words text ∧ bytes = front ++ 91 :: (text ++ rest) := by
  obtain ⟨front, blank, split⟩ := exists_blank bytes
  unfold readWords at read
  split at read
  · cases read
  · next b inner trimmed =>
    rw [trimmed] at split
    split at read
    · next bracket =>
      subst bracket
      split at read
      · cases read
      · next opened =>
        obtain ⟨inside, blank', ⟨_, same, rfl⟩ | ⟨_, same, _⟩⟩ := openList_eq_ok opened
        · cases same
          cases read
          exact ⟨front, inside ++ [93], blank, .empty blank', by rw [split, List.append_assoc]; rfl⟩
        · cases same
      · next opened =>
        obtain ⟨inside, blank', ⟨_, same, _⟩ | ⟨_, same, rfl⟩⟩ := openList_eq_ok opened
        · cases same
        · cases same
          obtain ⟨later, text, rfl, rfl, items⟩ := readWordsAfter_eq_ok read
          exact ⟨front, inside ++ text, blank, .items (items.after blank'), by rw [split, List.append_assoc]⟩
    · cases read

end WordMachine.Snapshot
