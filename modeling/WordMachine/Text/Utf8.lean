/-!
UTF-8. `encode` writes characters as bytes, and `units` reads bytes as
characters and, between them, pieces that begin no character: such a piece ends
where the bytes stop being the beginning of one, so that every reader finds the
same pieces. `decode?` accepts only bytes without such pieces, and `decodeLossy`
puts the replacement character for each.
-/
namespace WordMachine.Utf8

def encode (text : List Char) : List UInt8 := text.flatMap String.utf8EncodeChar

@[simp] theorem encode_nil : encode [] = [] := rfl

@[simp] theorem encode_cons (c : Char) (text : List Char) :
    encode (c :: text) = String.utf8EncodeChar c ++ encode text := by
  simp [encode]

@[simp] theorem encode_append (first second : List Char) :
    encode (first ++ second) = encode first ++ encode second := by
  simp [encode]

/-- What the first byte of a character says: its value bits, and for each byte
    that must follow the least and the greatest that may stand there. -/
structure Lead where
  bits : Nat
  follow : List (UInt8 × UInt8)
deriving DecidableEq

/-- Any byte after the first. -/
def tail : UInt8 × UInt8 := (0x80, 0xBF)

/-- The reading of a first byte; `none` if no character begins with it. The
    ranges of the second byte exclude overlong forms, surrogates and values past
    the last character. -/
def lead? (b : UInt8) : Option Lead :=
  if b < 0x80 then some ⟨b.toNat, []⟩
  else if b < 0xC2 then none
  else if b < 0xE0 then some ⟨b.toNat - 0xC0, [tail]⟩
  else if b = 0xE0 then some ⟨0, [(0xA0, 0xBF), tail]⟩
  else if b = 0xED then some ⟨0xD, [(0x80, 0x9F), tail]⟩
  else if b < 0xF0 then some ⟨b.toNat - 0xE0, [tail, tail]⟩
  else if b = 0xF0 then some ⟨0, [(0x90, 0xBF), tail, tail]⟩
  else if b < 0xF4 then some ⟨b.toNat - 0xF0, [tail, tail, tail]⟩
  else if b = 0xF4 then some ⟨4, [(0x80, 0x8F), tail, tail]⟩
  else none

/-- The value of a character whose first bytes gave `bits`, and what comes after
    it; `none` where a byte is out of its range or missing. -/
def complete : List (UInt8 × UInt8) → Nat → List UInt8 → Option Nat × List UInt8
  | [], bits, bytes => (some bits, bytes)
  | _ :: _, _, [] => (none, [])
  | (low, high) :: follow, bits, b :: bytes =>
    if low ≤ b ∧ b ≤ high then complete follow (bits * 64 + (b.toNat - 0x80)) bytes
    else (none, b :: bytes)

theorem length_complete_le (follow : List (UInt8 × UInt8)) (bits : Nat) (bytes : List UInt8) :
    (complete follow bits bytes).2.length ≤ bytes.length := by
  induction bytes generalizing follow bits with
  | nil => cases follow <;> simp [complete]
  | cons b bytes ih =>
    rcases follow with _ | ⟨⟨low, high⟩, follow⟩
    · simp [complete]
    · simp only [complete]
      split
      · exact Nat.le_succ_of_le (ih follow _)
      · exact Nat.le_refl _

/-- The unit that begins with the byte `b`, and what comes after it. -/
def unit (b : UInt8) (bytes : List UInt8) : Option Char × List UInt8 :=
  match lead? b with
  | none => (none, bytes)
  | some lead =>
    match complete lead.follow lead.bits bytes with
    | (value, rest) => (value.map Char.ofNat, rest)

theorem length_unit_le (b : UInt8) (bytes : List UInt8) : (unit b bytes).2.length ≤ bytes.length := by
  unfold unit
  split
  · exact Nat.le_refl _
  · exact length_complete_le _ _ _

/-- The units of bytes after those already found, which come last first. -/
def unitsAfter (found : List (Option Char)) : List UInt8 → List (Option Char)
  | [] => found.reverse
  | b :: bytes => unitsAfter ((unit b bytes).1 :: found) (unit b bytes).2
termination_by bytes => bytes.length
decreasing_by exact Nat.lt_succ_of_le (length_unit_le b bytes)

/-- Bytes as characters, with `none` for each piece that begins no character. -/
def units (bytes : List UInt8) : List (Option Char) := unitsAfter [] bytes

theorem unitsAfter_eq (found : List (Option Char)) (bytes : List UInt8) :
    unitsAfter found bytes = found.reverse ++ units bytes := by
  have general : ∀ (n : Nat) (found : List (Option Char)) (bytes : List UInt8), bytes.length ≤ n →
      unitsAfter found bytes = found.reverse ++ unitsAfter [] bytes := by
    intro n
    induction n with
    | zero =>
      intro found bytes short
      rw [List.length_eq_zero_iff.mp (Nat.le_zero.mp short)]
      simp [unitsAfter]
    | succ n ih =>
      intro found bytes short
      rcases bytes with _ | ⟨b, bytes⟩
      · simp [unitsAfter]
      · have shorter : (unit b bytes).2.length ≤ n :=
          Nat.le_trans (length_unit_le b bytes) (Nat.le_of_succ_le_succ short)
        rw [unitsAfter, unitsAfter, ih _ _ shorter, ih [(unit b bytes).1] _ shorter]
        simp
  exact general _ found bytes (Nat.le_refl _)

@[simp] theorem units_nil : units [] = [] := by
  simp [units, unitsAfter]

/-- Bytes are read one unit after the other. -/
theorem units_cons (b : UInt8) (bytes : List UInt8) :
    units (b :: bytes) = (unit b bytes).1 :: units (unit b bytes).2 := by
  rw [units, unitsAfter, unitsAfter_eq]
  rfl

def replacement : Char := '\uFFFD'

/-- The characters of bytes, with the replacement character for each piece that
    begins none. -/
def decodeLossy (bytes : List UInt8) : List Char := (units bytes).map (·.getD replacement)

/-- The characters of bytes, if all of them belong to characters. -/
def decode? (bytes : List UInt8) : Option (List Char) :=
  let found := units bytes
  if found.all Option.isSome then some (found.filterMap id) else none

end WordMachine.Utf8
