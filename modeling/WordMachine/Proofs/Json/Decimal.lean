import WordMachine.Json.Value
import WordMachine.Text.Numeral
import WordMachine.Proofs.Text.Utf8

/-!
Numbers in decimal, read back from JSON. A number that is written in decimal is a
JSON number without fraction and exponent, and as long as sixty-four bits hold it
the reader finds it again (`readNumber_decimal`), whatever follows, if only the
number cannot go on with it (`Ends`).
-/
namespace WordMachine.Json

/-- The bytes of a number in decimal. -/
def decimal (n : Nat) : List UInt8 := Utf8.encode (WordMachine.Numeral.digits n)

/-- A text with which no number goes on. -/
def Ends (rest : List UInt8) : Prop :=
  ∀ b ∈ rest.head?, isDigit b = false ∧ b ≠ 46 ∧ b ≠ 101 ∧ b ≠ 69

theorem ends_cons {b : UInt8} {rest : List UInt8} :
    Ends (b :: rest) ↔ isDigit b = false ∧ b ≠ 46 ∧ b ≠ 101 ∧ b ≠ 69 := by
  simp [Ends]

private theorem encode_digit {d : Nat} (below : d < 10) :
    Utf8.encode [WordMachine.Numeral.digit d] = [UInt8.ofNat (48 + d)] := by
  have table : ∀ d : Fin 10, Utf8.encode [WordMachine.Numeral.digit d.val] = [UInt8.ofNat (48 + d.val)] := by
    decide
  exact table ⟨d, below⟩

theorem decimal_of_lt {n : Nat} (below : n < 10) : decimal n = [UInt8.ofNat (48 + n)] := by
  rw [decimal, WordMachine.Numeral.digits, if_pos below, encode_digit below]

/-- The last digit stands behind the digits of the tens. -/
theorem decimal_of_le {n : Nat} (above : 10 ≤ n) :
    decimal n = decimal (n / 10) ++ [UInt8.ofNat (48 + n % 10)] := by
  rw [decimal, WordMachine.Numeral.digits, if_neg (by omega), Utf8.encode_append,
    encode_digit (Nat.mod_lt n (by decide)), decimal]

private theorem toNat_digit {d : Nat} (below : d < 10) : (UInt8.ofNat (48 + d)).toNat = 48 + d := by
  rw [UInt8.toNat_ofNat', Nat.mod_eq_of_lt (by omega)]

theorem isDigit_iff {b : UInt8} : isDigit b = true ↔ 48 ≤ b.toNat ∧ b.toNat ≤ 57 := by
  simp [isDigit, UInt8.le_iff_toNat_le]

theorem isDigit_of_mem_decimal {n : Nat} : ∀ b ∈ decimal n, isDigit b = true := by
  have one : ∀ d < 10, isDigit (UInt8.ofNat (48 + d)) = true := by
    intro d below
    rw [isDigit_iff, toNat_digit below]
    omega
  induction n using Nat.strongRecOn with
  | ind n ih =>
    intro b member
    by_cases below : n < 10
    · rw [decimal_of_lt below, List.mem_singleton] at member
      exact member ▸ one n below
    · rw [decimal_of_le (by omega), List.mem_append, List.mem_singleton] at member
      rcases member with front | last
      · exact ih (n / 10) (by omega) b front
      · exact last ▸ one (n % 10) (Nat.mod_lt n (by decide))

/-- No number but zero begins with a zero. -/
theorem decimal_eq_cons (n : Nat) : ∃ b rest, decimal n = b :: rest ∧ (b = 48 → n = 0) := by
  induction n using Nat.strongRecOn with
  | ind n ih =>
    by_cases below : n < 10
    · refine ⟨_, [], decimal_of_lt below, ?_⟩
      intro zero
      rw [← UInt8.toNat_inj, toNat_digit below] at zero
      simpa using zero
    · obtain ⟨b, rest, spelled, plain⟩ := ih (n / 10) (by omega)
      refine ⟨b, rest ++ [UInt8.ofNat (48 + n % 10)], by rw [decimal_of_le (by omega), spelled]; rfl, ?_⟩
      intro zero
      have tens := plain zero
      omega

/-! ### Reading -/

private theorem absorb_concat {bytes : List UInt8} {m v : Nat} {b : UInt8}
    (taken : absorb m bytes = (v, bytes.length)) (fits : 10 * v + (b.toNat - 48) < 0x10000000000000000) :
    absorb m (bytes ++ [b]) = (10 * v + (b.toNat - 48), (bytes ++ [b]).length) := by
  induction bytes generalizing m with
  | nil =>
    cases taken
    simp only [List.nil_append, absorb]
    rw [if_pos fits]
    rfl
  | cons c bytes ih =>
    simp only [absorb] at taken
    split at taken
    · next small =>
      simp only [Prod.mk.injEq, List.length_cons, Nat.add_right_cancel_iff] at taken
      have later : absorb (10 * m + (c.toNat - 48)) bytes = (v, bytes.length) := Prod.ext taken.1 taken.2
      rw [List.cons_append, absorb, if_pos small, ih later]
      rfl
    · simp at taken

/-- All digits of a number are taken, as long as sixty-four bits hold it. -/
theorem absorb_decimal {n : Nat} (fits : n < 0x10000000000000000) : absorb 0 (decimal n) = (n, (decimal n).length) := by
  induction n using Nat.strongRecOn with
  | ind n ih =>
    by_cases below : n < 10
    · rw [decimal_of_lt below, absorb, toNat_digit below, Nat.add_sub_cancel_left]
      rw [if_pos (by omega)]
      simp [absorb]
    · have last : (UInt8.ofNat (48 + n % 10)).toNat = 48 + n % 10 := toNat_digit (Nat.mod_lt n (by decide))
      have whole : 10 * (n / 10) + ((UInt8.ofNat (48 + n % 10)).toNat - 48) = n := by
        rw [last]
        omega
      have taken := absorb_concat (ih (n / 10) (by omega) (by omega)) (by rw [whole]; exact fits)
      rwa [whole, ← decimal_of_le (by omega)] at taken

/-- One digit or more. -/
def DigitsText (text : List UInt8) : Prop := text ≠ [] ∧ ∀ b ∈ text, isDigit b = true

/-- The digits before the decimal point, with a zero in front only if there is no other. -/
def WholeText (text : List UInt8) : Prop := DigitsText text ∧ ∀ more, text = 48 :: more → more = []

/-- A text with which digits do not go on. -/
def Undigited (rest : List UInt8) : Prop := ∀ b ∈ rest.head?, isDigit b = false

theorem Ends.undigited {rest : List UInt8} (ends : Ends rest) : Undigited rest := fun b first => (ends b first).1

theorem DigitsText.exists_cons {text : List UInt8} (digits : DigitsText text) :
    ∃ b more, text = b :: more ∧ isDigit b = true := by
  obtain ⟨b, more, rfl⟩ := List.exists_cons_of_ne_nil digits.1
  exact ⟨b, more, rfl, digits.2 b List.mem_cons_self⟩

theorem someDigits_append (ended : Error) {text rest : List UInt8} (found : DigitsText text) (stops : Undigited rest) :
    someDigits ended (text ++ rest) = .ok (text, rest) := by
  have left : rest.takeWhile isDigit = [] ∧ rest.dropWhile isDigit = rest := by
    rcases rest with _ | ⟨b, rest⟩
    · exact ⟨rfl, rfl⟩
    · have other : isDigit b = false := stops b rfl
      exact ⟨List.takeWhile_cons_of_neg (by simp [other]), List.dropWhile_cons_of_neg (by simp [other])⟩
  have split : digits (text ++ rest) = (text, rest) := by
    rw [digits, List.takeWhile_append_of_pos found.2, List.dropWhile_append_of_pos found.2, left.1, left.2,
      List.append_nil]
  obtain ⟨b, more, spelled, -⟩ := found.exists_cons
  unfold someDigits
  rw [split, spelled]

theorem wholeText_decimal (n : Nat) : WholeText (decimal n) := by
  obtain ⟨b, more, spelled, zero⟩ := decimal_eq_cons n
  refine ⟨⟨by rw [spelled]; nofun, isDigit_of_mem_decimal⟩, ?_⟩
  intro later same
  obtain ⟨rfl, -⟩ := List.cons.inj (spelled.symm.trans same)
  rw [zero rfl, decimal_of_lt (by decide)] at same
  exact (List.cons.inj same).2.symm

/-- Digits with no needless zero in front are a numeral that has only a whole part. -/
theorem scan_wholeText (ended : Error) {whole : List UInt8} (shown : WholeText whole) {rest : List UInt8}
    (ends : Ends rest) : Numeral.scan ended (whole ++ rest) = .ok (⟨false, whole, [], none⟩, rest) := by
  have unsigned : Numeral.scan ended (whole ++ rest) = Numeral.scanUnsigned ended false (whole ++ rest) := by
    obtain ⟨b, more, rfl, digit⟩ := shown.1.exists_cons
    rw [List.cons_append, Numeral.scan]
    rintro _ ⟨⟩
    exact absurd digit (by decide)
  have fraction : Numeral.scanFraction ended rest = .ok ([], rest) := by
    rcases rest with _ | ⟨c, rest⟩
    · rfl
    · rw [Numeral.scanFraction]
      rintro _ ⟨⟩
      exact (ends_cons.mp ends).2.1 rfl
  have exponent : Numeral.scanExponent ended rest = .ok (none, rest) := by
    rcases rest with _ | ⟨c, rest⟩
    · rfl
    · obtain ⟨-, -, small, capital⟩ := ends_cons.mp ends
      rw [Numeral.scanExponent, if_neg (by simp [small, capital])]
  rw [unsigned, Numeral.scanUnsigned, someDigits_append ended shown.1 ends.undigited]
  split
  · next broken => cases broken
  · next broken =>
    simp only [Except.ok.injEq, Prod.mk.injEq] at broken
    cases shown.2 _ broken.1
  · next taken =>
    simp only [Except.ok.injEq, Prod.mk.injEq] at taken
    obtain ⟨rfl, rfl⟩ := taken
    rw [fraction]
    simp only [exponent]

theorem readNumber_decimal {n : Nat} (fits : n < 0x10000000000000000) {rest : List UInt8} (ends : Ends rest) :
    readNumber (decimal n ++ rest) = .ok (.natural n, rest) := by
  rw [readNumber, scan_wholeText _ (wholeText_decimal n) ends]
  simp [Numeral.value, absorb_decimal fits]

end WordMachine.Json
