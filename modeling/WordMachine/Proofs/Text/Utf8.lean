import WordMachine.Text.Utf8

/-!
UTF-8 read back. The bytes of a character are one unit, whatever follows them
(`unit_encodeChar`), so what has been encoded is read as the characters that it
was made of (`units_encode`), by the strict reader and by the lossy one alike.
-/
namespace WordMachine.Utf8

private theorem toNat_ofNat_of_lt {n : Nat} (below : n < 256) : (UInt8.ofNat n).toNat = n := by
  rw [UInt8.toNat_ofNat', Nat.mod_eq_of_lt below]

/-- A byte after the first one gives six bits of the value. -/
theorem complete_cons {low high : UInt8} {x : Nat} (above : low.toNat ≤ x + 0x80)
    (below : x + 0x80 ≤ high.toNat) (follow : List (UInt8 × UInt8)) (bits : Nat) (bytes : List UInt8) :
    complete ((low, high) :: follow) bits (UInt8.ofNat (x + 0x80) :: bytes)
      = complete follow (bits * 64 + x) bytes := by
  have small : high.toNat < 256 := high.toNat_lt
  have value : (UInt8.ofNat (x + 0x80)).toNat = x + 0x80 := toNat_ofNat_of_lt (by omega)
  have within : low ≤ UInt8.ofNat (x + 0x80) ∧ UInt8.ofNat (x + 0x80) ≤ high := by
    rw [UInt8.le_iff_toNat_le, UInt8.le_iff_toNat_le, value]
    exact ⟨above, below⟩
  rw [complete, if_pos within, value, Nat.add_sub_cancel]

private theorem complete_tail {x : Nat} (below : x < 64) (follow : List (UInt8 × UInt8)) (bits : Nat)
    (bytes : List UInt8) :
    complete (tail :: follow) bits (UInt8.ofNat (x + 0x80) :: bytes) = complete follow (bits * 64 + x) bytes :=
  @complete_cons 0x80 0xBF x (by simp) (by simp; omega) follow bits bytes

theorem lead?_one {n : Nat} (below : n < 0x80) : lead? (UInt8.ofNat n) = some ⟨n, []⟩ := by
  have value : (UInt8.ofNat n).toNat = n := toNat_ofNat_of_lt (by omega)
  have one : UInt8.ofNat n < 0x80 := by
    rw [UInt8.lt_iff_toNat_lt, value]
    exact below
  rw [lead?, if_pos one, value]

theorem lead?_two {n : Nat} (above : 2 ≤ n) (below : n < 0x20) :
    lead? (UInt8.ofNat (n + 0xC0)) = some ⟨n, [tail]⟩ := by
  have value : (UInt8.ofNat (n + 0xC0)).toNat = n + 0xC0 := toNat_ofNat_of_lt (by omega)
  simp only [lead?, UInt8.lt_iff_toNat_lt, value]
  rw [if_neg (by simp), if_neg (by simp; omega), if_pos (by simp; omega), Nat.add_sub_cancel]

/-- The first of three bytes, with the range of the second. -/
theorem lead?_three {n : Nat} (below : n < 0x10) :
    lead? (UInt8.ofNat (n + 0xE0))
      = some ⟨n, [(if n = 0 then 0xA0 else 0x80, if n = 0xD then 0x9F else 0xBF), tail]⟩ := by
  have table : ∀ n : Fin 0x10, lead? (UInt8.ofNat (n.val + 0xE0))
      = some ⟨n, [(if n.val = 0 then 0xA0 else 0x80, if n.val = 0xD then 0x9F else 0xBF), tail]⟩ := by
    decide
  exact table ⟨n, below⟩

/-- The first of four bytes, with the range of the second. -/
theorem lead?_four {n : Nat} (below : n < 5) :
    lead? (UInt8.ofNat (n + 0xF0))
      = some ⟨n, [(if n = 0 then 0x90 else 0x80, if n = 4 then 0x8F else 0xBF), tail, tail]⟩ := by
  have table : ∀ n : Fin 5, lead? (UInt8.ofNat (n.val + 0xF0))
      = some ⟨n, [(if n.val = 0 then 0x90 else 0x80, if n.val = 4 then 0x8F else 0xBF), tail, tail]⟩ := by
    decide
  exact table ⟨n, below⟩

/-- The bytes of a character are one unit. -/
theorem unit_encodeChar (c : Char) (rest : List UInt8) :
    ∃ b bytes, String.utf8EncodeChar c = b :: bytes ∧ unit b (bytes ++ rest) = (some c, rest) := by
  have valid : c.val.toNat < 0xD800 ∨ 0xDFFF < c.val.toNat ∧ c.val.toNat < 0x110000 := c.valid
  have same : Char.ofNat c.val.toNat = c := Char.ofNat_toNat c
  unfold String.utf8EncodeChar
  generalize c.val.toNat = n at valid same ⊢
  by_cases one : n ≤ 0x7F
  · refine ⟨_, _, if_pos one, ?_⟩
    simp [unit, lead?_one (show n < 0x80 by omega), complete, same]
  by_cases two : n ≤ 0x7FF
  · refine ⟨_, _, by rw [if_neg one, if_pos two], ?_⟩
    have bits : n / 64 % 0x20 * 64 + n % 0x40 = n := by omega
    simp only [unit, lead?_two (show 2 ≤ n / 64 % 0x20 by omega) (by omega), List.cons_append,
      List.nil_append, complete_tail (show n % 0x40 < 64 by omega), complete, bits]
    simp [same]
  by_cases three : n ≤ 0xFFFF
  · refine ⟨_, _, by rw [if_neg one, if_neg two, if_pos three], ?_⟩
    have bits : (n / 4096 % 0x10 * 64 + n / 64 % 0x40) * 64 + n % 0x40 = n := by omega
    simp only [unit, lead?_three (show n / 4096 % 0x10 < 0x10 by omega), List.cons_append, List.nil_append]
    rw [complete_cons (by split <;> simp <;> omega) (by split <;> simp <;> omega),
      complete_tail (by omega), bits]
    simp [complete, same]
  · refine ⟨_, _, by rw [if_neg one, if_neg two, if_neg three], ?_⟩
    have bits : ((n / 262144 % 0x08 * 64 + n / 4096 % 0x40) * 64 + n / 64 % 0x40) * 64 + n % 0x40 = n := by
      omega
    simp only [unit, lead?_four (show n / 262144 % 0x08 < 5 by omega), List.cons_append, List.nil_append]
    rw [complete_cons (by split <;> simp <;> omega) (by split <;> simp <;> omega),
      complete_tail (by omega), complete_tail (by omega), bits]
    simp [complete, same]

/-- The units of what has been encoded are its characters. -/
theorem units_encode_append (text : List Char) (rest : List UInt8) :
    units (encode text ++ rest) = text.map some ++ units rest := by
  induction text with
  | nil => rfl
  | cons c text ih =>
    obtain ⟨b, bytes, spelled, read⟩ := unit_encodeChar c (encode text ++ rest)
    rw [encode_cons, spelled, List.append_assoc, List.cons_append, units_cons, read, ih]
    rfl

theorem units_encode (text : List Char) : units (encode text) = text.map some := by
  have general := units_encode_append text []
  rwa [List.append_nil, units_nil, List.append_nil] at general

/-- What has been encoded is read as it was. -/
theorem decodeLossy_encode (text : List Char) : decodeLossy (encode text) = text := by
  rw [decodeLossy, units_encode, List.map_map]
  exact List.map_id text

/-- What has been encoded is accepted, and read as it was. -/
theorem decode?_encode (text : List Char) : decode? (encode text) = some text := by
  simp [decode?, units_encode, List.filterMap_map]

end WordMachine.Utf8
