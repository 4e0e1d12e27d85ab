import Mathlib.Data.Nat.Digits.Defs
import WordMachine.Text.Numeral

/-!
Decimal numbers. `Writes` says which texts are numerals of a number: digits, with any number
of zeros and one plus sign at most before them. What is read as a number is such a text, as
long as sixty-four bits hold the number (`parse64_eq_ok_iff`), and so are the digits that are
written for it (`parse64_digits`).
-/
namespace WordMachine.Numeral

theorem digits_of_lt {n : Nat} (below : n < 10) : digits n = [digit n] := by
  rw [digits, if_pos below]

/-- The last digit stands behind the digits of the tens. -/
theorem digits_of_le {n : Nat} (above : 10 ≤ n) : digits n = digits (n / 10) ++ [digit (n % 10)] := by
  rw [digits, if_neg (Nat.not_lt.mpr above)]

theorem value?_digit {d : Nat} (below : d < 10) : value? (digit d) = some d := by
  have table : ∀ d : Fin 10, value? (digit d.val) = some d.val := by decide
  exact table ⟨d, below⟩

/-! ### Numerals -/

/-- Digits, the one of the greatest place first, and their number. -/
def Spells (text : List Char) (n : Nat) : Prop :=
  ∃ places : List Nat, places ≠ [] ∧ (∀ d ∈ places, d < 10) ∧ text = places.map digit ∧
    n = Nat.ofDigits 10 places.reverse

/-- The texts that are numerals of a number. Zeros may stand before the other digits, and one
    plus sign before all of them. -/
inductive Writes : List Char → Nat → Prop
  | unsigned {text : List Char} {n : Nat} : Spells text n → Writes text n
  | signed {text : List Char} {n : Nat} : Spells text n → Writes ('+' :: text) n

theorem value?_eq_some_iff {c : Char} {d : Nat} : value? c = some d ↔ d < 10 ∧ c = digit d := by
  constructor
  · intro known
    unfold value? at known
    split at known
    · next between =>
      obtain ⟨above, below⟩ := between
      have least : 48 ≤ c.toNat := above
      have most : c.toNat ≤ 57 := below
      cases known
      refine ⟨by omega, ?_⟩
      rw [digit, Nat.add_sub_of_le least, Char.ofNat_toNat]
    · cases known
  · rintro ⟨below, rfl⟩
    exact value?_digit below

namespace Spells

variable {text rest : List Char} {n : Nat}

theorem ne_nil (spells : Spells text n) : text ≠ [] := by
  obtain ⟨places, some, -, rfl, -⟩ := spells
  exact mt List.map_eq_nil_iff.mp some

/-- A character that is no digit does not occur among digits. -/
theorem notMem (spells : Spells text n) {c : Char} (other : value? c = none) : c ∉ text := by
  obtain ⟨places, -, small, rfl, -⟩ := spells
  intro among
  obtain ⟨d, place, rfl⟩ := List.mem_map.mp among
  rw [value?_digit (small d place)] at other
  cases other

/-- Digits do not begin with a plus sign. -/
theorem ne_signed (spells : Spells text n) : text ≠ '+' :: rest := by
  rintro rfl
  exact spells.notMem rfl (.head rest)

/-- One digit more. -/
theorem concat (spells : Spells text n) {d : Nat} (below : d < 10) : Spells (text ++ [digit d]) (10 * n + d) := by
  obtain ⟨places, -, small, rfl, rfl⟩ := spells
  refine ⟨places ++ [d], List.concat_ne_nil d places, ?_, by rw [List.map_append, List.map_singleton], ?_⟩
  · intro e among
    rcases List.mem_append.mp among with front | last
    · exact small e front
    · exact List.mem_singleton.mp last ▸ below
  · rw [List.reverse_append, List.reverse_singleton, List.singleton_append, Nat.ofDigits_cons, Nat.add_comm]

end Spells

theorem spells_digits (n : Nat) : Spells (digits n) n := by
  induction n using Nat.strongRecOn with
  | ind n ih =>
    by_cases below : n < 10
    · refine ⟨[n], nofun, ?_, digits_of_lt below, Nat.ofDigits_singleton.symm⟩
      intro d among
      exact List.mem_singleton.mp among ▸ below
    · have longer := (ih (n / 10) (by omega)).concat (Nat.mod_lt n (by decide))
      rwa [← digits_of_le (by omega), Nat.div_add_mod] at longer

/-- A character that is no digit does not occur in a number. -/
theorem notMem_digits {c : Char} (other : value? c = none) (n : Nat) : c ∉ digits n :=
  (spells_digits n).notMem other

theorem digits_ne_nil (n : Nat) : digits n ≠ [] := (spells_digits n).ne_nil

/-! ### Reading -/

theorem ofDigits_reverse (places : List Nat) :
    Nat.ofDigits 10 places.reverse = places.foldl (fun n d => 10 * n + d) 0 := by
  rw [Nat.ofDigits_eq_foldr, List.foldr_reverse]
  simp only [Nat.cast_id, Nat.add_comm]

private theorem le_foldl (places : List Nat) (n : Nat) : n ≤ places.foldl (fun n d => 10 * n + d) n := by
  induction places generalizing n with
  | nil => exact Nat.le_refl n
  | cons d places ih => exact Nat.le_trans (by omega) (ih (10 * n + d))

/-- What is taken behind a number is digits, as long as sixty-four bits hold what they make of
    the number. -/
theorem accumulate_eq_ok_iff {text : List Char} {n v : Nat} (fits : n < bound) :
    accumulate n text = .ok v ↔ ∃ places : List Nat, (∀ d ∈ places, d < 10) ∧ text = places.map digit ∧
      v = places.foldl (fun n d => 10 * n + d) n ∧ v < bound := by
  induction text generalizing n with
  | nil =>
    constructor
    · rintro ⟨⟩
      exact ⟨[], nofun, rfl, rfl, fits⟩
    · rintro ⟨places, -, empty, rfl, -⟩
      cases List.map_eq_nil_iff.mp empty.symm
      rfl
  | cons c text ih =>
    -- The first of the places is the digit that stands first.
    have first (places : List Nat) (small : ∀ d ∈ places, d < 10) (spelled : c :: text = places.map digit) :
        ∃ d rest, places = d :: rest ∧ value? c = some d ∧ text = rest.map digit := by
      obtain ⟨d, rest, rfl, rfl, later⟩ := List.map_eq_cons_iff.mp spelled.symm
      exact ⟨d, rest, rfl, value?_digit (small d (.head rest)), later.symm⟩
    rw [accumulate]
    cases known : value? c with
    | none =>
      refine ⟨nofun, ?_⟩
      rintro ⟨places, small, spelled, -⟩
      obtain ⟨d, rest, -, read, -⟩ := first places small spelled
      rw [known] at read
      cases read
    | some d =>
      by_cases room : 10 * n + d < bound
      · simp only [if_pos room]
        rw [ih room]
        constructor
        · rintro ⟨rest, small, rfl, more⟩
          obtain ⟨below, rfl⟩ := value?_eq_some_iff.mp known
          exact ⟨d :: rest, List.forall_mem_cons.mpr ⟨below, small⟩, rfl, more⟩
        · rintro ⟨places, small, spelled, more⟩
          obtain ⟨e, rest, rfl, read, later⟩ := first places small spelled
          cases known.symm.trans read
          exact ⟨rest, (List.forall_mem_cons.mp small).2, later, more⟩
      · simp only [if_neg room]
        refine ⟨nofun, ?_⟩
        rintro ⟨places, small, spelled, rfl, held⟩
        obtain ⟨e, rest, rfl, read, -⟩ := first places small spelled
        cases known.symm.trans read
        exact absurd (Nat.lt_of_le_of_lt (le_foldl rest (10 * n + d)) held) room

theorem accumulate_zero_eq_ok_iff {text : List Char} {v : Nat} (filled : text ≠ []) :
    accumulate 0 text = .ok v ↔ Spells text v ∧ v < bound := by
  rw [accumulate_eq_ok_iff (by decide)]
  constructor
  · rintro ⟨places, small, rfl, value, held⟩
    exact ⟨⟨places, fun none => filled (by rw [none]; rfl), small, rfl, value.trans (ofDigits_reverse places).symm⟩, held⟩
  · rintro ⟨⟨places, -, small, spelled, value⟩, held⟩
    exact ⟨places, small, spelled, value.trans (ofDigits_reverse places), held⟩

/-- What is read as a number is a numeral of it that sixty-four bits hold, and nothing else. -/
theorem parse64_eq_ok_iff {text : List Char} {v : Nat} : parse64 text = .ok v ↔ Writes text v ∧ v < bound := by
  unfold parse64
  split
  · refine ⟨nofun, ?_⟩
    rintro ⟨⟨spells⟩, -⟩
    exact absurd rfl spells.ne_nil
  · refine ⟨nofun, ?_⟩
    rintro ⟨spells | spells, -⟩
    · exact absurd rfl spells.ne_signed
    · exact absurd rfl spells.ne_nil
  · next text alone =>
    rw [accumulate_zero_eq_ok_iff alone]
    constructor
    · rintro ⟨spells, held⟩
      exact ⟨.signed spells, held⟩
    · rintro ⟨spells | spells, held⟩
      · exact absurd rfl spells.ne_signed
      · exact ⟨spells, held⟩
  · next text filled _ plain =>
    rw [accumulate_zero_eq_ok_iff filled]
    constructor
    · rintro ⟨spells, held⟩
      exact ⟨.unsigned spells, held⟩
    · rintro ⟨spells | spells, held⟩
      · exact ⟨spells, held⟩
      · exact absurd rfl (plain _)

theorem parse64_digits {n : Nat} (fits : n < bound) : parse64 (digits n) = .ok n :=
  parse64_eq_ok_iff.mpr ⟨.unsigned (spells_digits n), fits⟩

end WordMachine.Numeral
