import WordMachine.Json.Error
import WordMachine.Text.Utf8

/-!
JSON strings. `readText` takes the rest of a string, after its opening quote,
off the front of a text: escapes are replaced, and the bytes that result must be
UTF-8. `skipText` passes over a string and looks only at what its end depends
on.
-/
namespace WordMachine.Json

/-- The value of a hexadecimal digit. -/
def hexValue? (b : UInt8) : Option Nat :=
  if 48 ≤ b ∧ b ≤ 57 then some (b.toNat - 48)
  else if 65 ≤ b ∧ b ≤ 70 then some (b.toNat - 55)
  else if 97 ≤ b ∧ b ≤ 102 then some (b.toNat - 87)
  else none

def readHex : List UInt8 → Except Error (Nat × List UInt8)
  | a :: b :: c :: d :: rest =>
    match hexValue? a, hexValue? b, hexValue? c, hexValue? d with
    | some a, some b, some c, some d => .ok (((a * 16 + b) * 16 + c) * 16 + d, rest)
    | _, _, _, _ => .error .invalidEscape
  | _ => .error .endOfText

/-- The first half of a pair that stands for a character past the sixteen-bit
    ones. -/
def isLeading (n : Nat) : Bool := 0xD800 ≤ n && n ≤ 0xDBFF

/-- The second half of such a pair. -/
def isTrailing (n : Nat) : Bool := 0xDC00 ≤ n && n ≤ 0xDFFF

def bytesOfNumber (n : Nat) : List UInt8 := Utf8.encode [Char.ofNat n]

/-- The second half of a pair whose first half was `n`. -/
def readTrailing (n : Nat) : List UInt8 → Except Error (List UInt8 × List UInt8)
  | 92 :: 117 :: rest =>
    match readHex rest with
    | .error error => .error error
    | .ok (m, rest) =>
      if isTrailing m then
        .ok (bytesOfNumber (0x10000 + (n - 0xD800) * 0x400 + (m - 0xDC00)), rest)
      else .error .loneSurrogate
  | [] | [92] => .error .endOfText
  | _ => .error .unfinishedSurrogate

/-- The character of an escape by number, after its letter. -/
def readNumbered (bytes : List UInt8) : Except Error (List UInt8 × List UInt8) :=
  match readHex bytes with
  | .error error => .error error
  | .ok (n, rest) =>
    if isTrailing n then .error .loneSurrogate
    else if isLeading n then readTrailing n rest
    else .ok (bytesOfNumber n, rest)

/-- The byte of an escape that is a single letter. -/
def escaped? (letter : UInt8) : Option UInt8 :=
  if letter = 34 ∨ letter = 92 ∨ letter = 47 then some letter
  else if letter = 98 then some 8
  else if letter = 102 then some 12
  else if letter = 110 then some 10
  else if letter = 114 then some 13
  else if letter = 116 then some 9
  else none

/-- What an escape stands for, after its backslash. -/
def readEscape : List UInt8 → Except Error (List UInt8 × List UInt8)
  | [] => .error .endOfText
  | letter :: rest =>
    match escaped? letter with
    | some b => .ok ([b], rest)
    | none => if letter = 117 then readNumbered rest else .error .invalidEscape

theorem length_readHex_lt {bytes rest : List UInt8} {n : Nat}
    (read : readHex bytes = .ok (n, rest)) : rest.length < bytes.length := by
  unfold readHex at read
  split at read
  · split at read
    · simp only [Except.ok.injEq, Prod.mk.injEq] at read
      simp only [← read.2, List.length_cons]
      omega
    · simp at read
  · simp at read

theorem length_readTrailing_lt {n : Nat} {bytes found rest : List UInt8}
    (read : readTrailing n bytes = .ok (found, rest)) : rest.length < bytes.length := by
  unfold readTrailing at read
  split at read
  · split at read
    · simp at read
    · next given =>
      have shorter := length_readHex_lt given
      split at read
      · simp only [Except.ok.injEq, Prod.mk.injEq] at read
        simp only [← read.2, List.length_cons]
        omega
      · simp at read
  · simp at read
  · simp at read
  · simp at read

theorem length_readNumbered_lt {bytes found rest : List UInt8}
    (read : readNumbered bytes = .ok (found, rest)) : rest.length < bytes.length := by
  unfold readNumbered at read
  split at read
  · simp at read
  · next given =>
    have shorter := length_readHex_lt given
    split at read
    · simp at read
    · split at read
      · have second := length_readTrailing_lt read
        omega
      · simp only [Except.ok.injEq, Prod.mk.injEq] at read
        rw [← read.2]
        exact shorter

theorem length_readEscape_lt {bytes found rest : List UInt8}
    (read : readEscape bytes = .ok (found, rest)) : rest.length < bytes.length := by
  unfold readEscape at read
  split at read
  · simp at read
  · split at read
    · simp only [Except.ok.injEq, Prod.mk.injEq] at read
      simp [← read.2]
    · split at read
      · exact Nat.lt_succ_of_lt (length_readNumbered_lt read)
      · simp at read

/-- The bytes of a string up to its closing quote, after those already found,
    which come last first, and what comes after the quote. -/
def readContents (found : List UInt8) (bytes : List UInt8) : Except Error (List UInt8 × List UInt8) :=
  match bytes with
  | [] => .error .endOfText
  | b :: rest =>
    if b = 34 then .ok (found.reverse, rest)
    else if b = 92 then
      match _read : readEscape rest with
      | .error error => .error error
      | .ok (piece, after) => readContents (piece.reverse ++ found) after
    else if b < 32 then .error .controlCharacter
    else readContents (b :: found) rest
termination_by bytes.length
decreasing_by
  · exact Nat.lt_succ_of_lt (length_readEscape_lt _read)
  · exact Nat.lt_succ_self _

/-- The characters of a string, after its opening quote, and what comes after
    it. -/
def readText (bytes : List UInt8) : Except Error (List Char × List UInt8) :=
  match readContents [] bytes with
  | .error error => .error error
  | .ok (contents, rest) =>
    match Utf8.decode? contents with
    | some text => .ok (text, rest)
    | none => .error .invalidCharacter

def skipEscape : List UInt8 → Except Error (List UInt8)
  | [] => .error .endOfText
  | letter :: rest =>
    if (escaped? letter).isSome then .ok rest
    else if letter = 117 then
      match readHex rest with
      | .error error => .error error
      | .ok (_, rest) => .ok rest
    else .error .invalidEscape

theorem length_skipEscape_lt {bytes rest : List UInt8}
    (read : skipEscape bytes = .ok rest) : rest.length < bytes.length := by
  unfold skipEscape at read
  split at read
  · simp at read
  · split at read
    · simp only [Except.ok.injEq] at read
      simp [← read]
    · split at read
      · split at read
        · simp at read
        · next given =>
          simp only [Except.ok.injEq] at read
          rw [← read]
          exact Nat.lt_succ_of_lt (length_readHex_lt given)
      · simp at read

/-- What comes after a string, after its opening quote. -/
def skipText (bytes : List UInt8) : Except Error (List UInt8) :=
  match bytes with
  | [] => .error .endOfText
  | b :: rest =>
    if b = 34 then .ok rest
    else if b = 92 then
      match _read : skipEscape rest with
      | .error error => .error error
      | .ok after => skipText after
    else if b < 32 then .error .controlCharacter
    else skipText rest
termination_by bytes.length
decreasing_by
  · exact Nat.lt_succ_of_lt (length_skipEscape_lt _read)
  · exact Nat.lt_succ_self _

theorem length_readContents_lt {found bytes contents rest : List UInt8} :
    readContents found bytes = .ok (contents, rest) → rest.length < bytes.length := by
  fun_induction readContents found bytes with
  | case1 => simp
  | case2 => simp +contextual
  | case3 => simp
  | case4 found rest piece after given notQuote ih =>
    intro read
    have shorter := length_readEscape_lt given
    have inner := ih read
    simp only [List.length_cons]
    omega
  | case5 => simp
  | case6 found b rest notQuote notEscape printable ih =>
    intro read
    exact Nat.lt_succ_of_lt (ih read)

theorem length_readText_lt {bytes rest : List UInt8} {text : List Char}
    (read : readText bytes = .ok (text, rest)) : rest.length < bytes.length := by
  unfold readText at read
  split at read
  · simp at read
  · next given =>
    split at read
    · simp only [Except.ok.injEq, Prod.mk.injEq] at read
      rw [← read.2]
      exact length_readContents_lt given
    · simp at read

theorem length_skipText_lt {bytes rest : List UInt8} :
    skipText bytes = .ok rest → rest.length < bytes.length := by
  fun_induction skipText bytes with
  | case1 => simp
  | case2 => simp +contextual
  | case3 => simp
  | case4 rest after given notQuote ih =>
    intro read
    have shorter := length_skipEscape_lt given
    have inner := ih read
    simp only [List.length_cons]
    omega
  | case5 => simp
  | case6 b rest notQuote notEscape printable ih =>
    intro read
    exact Nat.lt_succ_of_lt (ih read)

end WordMachine.Json
