import WordMachine.Json.Error

/-!
JSON numbers. `Numeral.scan` takes a number off the front of a text by the
grammar of the format, and `Numeral.value` is what it stands for: an integer if
it is written as one and sixty-four bits hold it, and a double otherwise, whose
significand is the longest part of the digits that sixty-four bits hold.
-/
namespace WordMachine.Json

def isDigit (b : UInt8) : Bool := 48 ≤ b && b ≤ 57

/-- The digits at the front of a text, and what comes after them. -/
def digits (bytes : List UInt8) : List UInt8 × List UInt8 :=
  (bytes.takeWhile isDigit, bytes.dropWhile isDigit)

theorem length_dropWhile_le {α : Type} (p : α → Bool) (l : List α) :
    (l.dropWhile p).length ≤ l.length :=
  (List.dropWhile_suffix p).length_le

/-- At least one digit at the front of a text. `ended` is the error of a text
    that has ended. -/
def someDigits (ended : Error) (bytes : List UInt8) : Except Error (List UInt8 × List UInt8) :=
  match digits bytes, bytes with
  | ([], _), [] => .error ended
  | ([], _), _ :: _ => .error .invalidNumber
  | found, _ => .ok found

/-- The exponent of a number: its sign and its digits. -/
structure Exponent where
  negative : Bool
  digits : List UInt8
deriving DecidableEq

/-- The parts of a number as it is written. -/
structure Numeral where
  negative : Bool
  whole : List UInt8
  /-- Empty if the number has no decimal point. -/
  fraction : List UInt8
  exponent : Option Exponent
deriving DecidableEq

namespace Numeral

/-- The fraction at the front of what comes after the whole part. -/
def scanFraction (ended : Error) : List UInt8 → Except Error (List UInt8 × List UInt8)
  | 46 :: bytes => someDigits ended bytes
  | bytes => .ok ([], bytes)

/-- The sign at the front of an exponent, and what comes after it. -/
def scanSign : List UInt8 → Bool × List UInt8
  | 45 :: bytes => (true, bytes)
  | 43 :: bytes => (false, bytes)
  | bytes => (false, bytes)

/-- The exponent at the front of what comes after the fraction. -/
def scanExponent (ended : Error) : List UInt8 → Except Error (Option Exponent × List UInt8)
  | [] => .ok (none, [])
  | b :: bytes =>
    if b = 101 ∨ b = 69 then
      match someDigits ended (scanSign bytes).2 with
      | .error error => .error error
      | .ok (found, rest) => .ok (some ⟨(scanSign bytes).1, found⟩, rest)
    else .ok (none, b :: bytes)

/-- A number without its sign. There may be only one zero in front. -/
def scanUnsigned (ended : Error) (negative : Bool) (bytes : List UInt8) :
    Except Error (Numeral × List UInt8) :=
  match someDigits ended bytes with
  | .error error => .error error
  | .ok (48 :: _ :: _, _) => .error .invalidNumber
  | .ok (whole, rest) =>
    match scanFraction ended rest with
    | .error error => .error error
    | .ok (fraction, rest) =>
      match scanExponent ended rest with
      | .error error => .error error
      | .ok (exponent, rest) => .ok (⟨negative, whole, fraction, exponent⟩, rest)

/-- The number at the front of a text, and what comes after it. -/
def scan (ended : Error) : List UInt8 → Except Error (Numeral × List UInt8)
  | 45 :: bytes => scanUnsigned ended true bytes
  | bytes => scanUnsigned ended false bytes

end Numeral

/-- What a number stands for. -/
inductive Number
  | natural (value : Nat)
  /-- The integer below zero with this magnitude. -/
  | negative (magnitude : Nat)
  | float (value : Float)

/-- The kind of value that a number is. -/
def Number.found : Number → Found
  | natural value => .integer value
  | negative magnitude => .integer (-(magnitude : Int))
  | float value => .float value

/-- The number of the digits of `n` followed by further ones, as far as
    sixty-four bits hold it, and how many digits were taken. -/
def absorb (n : Nat) : List UInt8 → Nat × Nat
  | [] => (n, 0)
  | b :: bytes =>
    let next := 10 * n + (b.toNat - 48)
    if next < 0x10000000000000000 then
      match absorb next bytes with
      | (value, taken) => (value, taken + 1)
    else (n, 0)

/-- The greatest exponent that is told from greater ones. Far below it every double
    is zero or out of range. -/
def farthest : Nat := 0x80000000

/-- The exponent that digits write. -/
def valueOfDigits (bytes : List UInt8) : Nat :=
  bytes.foldl (fun n b => min farthest (10 * n + (b.toNat - 48))) 0

def tenTo (n : Nat) : Float := Float.ofScientific 1 false n

/-- A double divided by a power of ten, in steps that a double can hold. -/
def scaleDown (value : Float) (n : Nat) : Float :=
  if n ≤ 308 then value / tenTo n
  else if value == 0 then value
  else scaleDown (value / tenTo 308) (n - 308)
termination_by n
decreasing_by omega

/-- A double multiplied by a power of ten; `none` past the greatest double. -/
def scaleUp (value : Float) (n : Nat) : Option Float :=
  if n ≤ 308 then
    let scaled := value * tenTo n
    if scaled.isInf then none else some scaled
  else if value == 0 then some value
  else none

/-- The double of a significand and a power of ten. -/
def assemble (significand : Nat) (exponent : Int) : Option Float :=
  let value := significand.toUInt64.toFloat
  match exponent with
  | .ofNat n => scaleUp value n
  | .negSucc n => some (scaleDown value (n + 1))

namespace Numeral

def shift (numeral : Numeral) : Int :=
  match numeral.exponent with
  | none => 0
  | some ⟨false, found⟩ => valueOfDigits found
  | some ⟨true, found⟩ => -(valueOfDigits found : Int)

def signed (numeral : Numeral) (value : Float) : Float := if numeral.negative then -value else value

/-- What a numeral stands for. -/
def value (numeral : Numeral) : Except Error Number :=
  match absorb 0 numeral.whole with
  | (significand, taken) =>
    if taken = numeral.whole.length ∧ numeral.fraction = [] ∧ numeral.exponent = none then
      if numeral.negative then
        if 0 < significand ∧ significand ≤ 0x8000000000000000 then .ok (.negative significand)
        else .ok (.float (-significand.toUInt64.toFloat))
      else .ok (.natural significand)
    else
      match absorb significand numeral.fraction with
      | (significand, places) =>
        let exponent := ((numeral.whole.length - taken : Nat) : Int) - places + numeral.shift
        match assemble significand exponent with
        | some value => .ok (.float (numeral.signed value))
        | none => .error .numberOutOfRange

end Numeral

/-- The value of the number at the front of a text, and what comes after it. -/
def readNumber (bytes : List UInt8) : Except Error (Number × List UInt8) :=
  match Numeral.scan .endOfValue bytes with
  | .error error => .error error
  | .ok (numeral, rest) =>
    match numeral.value with
    | .error error => .error error
    | .ok number => .ok (number, rest)

theorem length_someDigits_lt {ended : Error} {bytes found rest : List UInt8}
    (read : someDigits ended bytes = .ok (found, rest)) : rest.length < bytes.length := by
  unfold someDigits digits at read
  rcases bytes with _ | ⟨b, bytes⟩
  · simp at read
  · by_cases digit : isDigit b
    · simp only [List.takeWhile_cons, List.dropWhile_cons, digit, if_true, Except.ok.injEq,
        Prod.mk.injEq] at read
      rw [← read.2]
      exact Nat.lt_succ_of_le (length_dropWhile_le _ _)
    · simp [digit] at read

namespace Numeral

theorem length_scanFraction_le {ended : Error} {bytes found rest : List UInt8}
    (read : scanFraction ended bytes = .ok (found, rest)) : rest.length ≤ bytes.length := by
  unfold scanFraction at read
  split at read
  · exact Nat.le_succ_of_le (Nat.le_of_lt (length_someDigits_lt read))
  · simp only [Except.ok.injEq, Prod.mk.injEq] at read
    simp [read.2]

theorem length_scanSign_le (bytes : List UInt8) : (scanSign bytes).2.length ≤ bytes.length := by
  unfold scanSign
  split <;> simp

theorem length_scanExponent_le {ended : Error} {bytes rest : List UInt8} {found : Option Exponent}
    (read : scanExponent ended bytes = .ok (found, rest)) : rest.length ≤ bytes.length := by
  unfold scanExponent at read
  split at read
  · cases read
    exact Nat.le_refl _
  · next b bytes =>
    have signed := length_scanSign_le bytes
    split at read
    · split at read
      · simp at read
      · next given =>
        have shorter := length_someDigits_lt given
        simp only [Except.ok.injEq, Prod.mk.injEq] at read
        rw [← read.2]
        exact Nat.le_succ_of_le (Nat.le_trans (Nat.le_of_lt shorter) signed)
    · cases read
      exact Nat.le_refl _

theorem length_scanUnsigned_lt {ended : Error} {negative : Bool} {bytes rest : List UInt8}
    {numeral : Numeral} (read : scanUnsigned ended negative bytes = .ok (numeral, rest)) :
    rest.length < bytes.length := by
  unfold scanUnsigned at read
  split at read
  · simp at read
  · simp at read
  · next whole =>
    have first := length_someDigits_lt whole
    split at read
    · simp at read
    · next fraction =>
      have second := length_scanFraction_le fraction
      split at read
      · simp at read
      · next exponent =>
        have third := length_scanExponent_le exponent
        simp only [Except.ok.injEq, Prod.mk.injEq] at read
        rw [← read.2]
        omega

theorem length_scan_lt {ended : Error} {bytes rest : List UInt8} {numeral : Numeral}
    (read : scan ended bytes = .ok (numeral, rest)) : rest.length < bytes.length := by
  unfold scan at read
  split at read
  · exact Nat.lt_succ_of_lt (length_scanUnsigned_lt read)
  · exact length_scanUnsigned_lt read

end Numeral

theorem length_readNumber_lt {bytes rest : List UInt8} {number : Number}
    (read : readNumber bytes = .ok (number, rest)) : rest.length < bytes.length := by
  unfold readNumber at read
  split at read
  · simp at read
  · next scanned =>
    split at read
    · simp at read
    · simp only [Except.ok.injEq, Prod.mk.injEq] at read
      rw [← read.2]
      exact Numeral.length_scan_lt scanned

end WordMachine.Json
