/-!
Shortest decimal numbers. A binary fraction stands for every real number that
rounds to it. `shortest` is the decimal number of the fewest digits among those,
and of the decimal numbers with as many digits the nearest.
-/
namespace WordMachine.Decimal

/-- A positive number `significand · 2^exponent`. The numbers below it are half
    as far apart as those above it if `narrow` holds. -/
structure Binary where
  significand : Nat
  exponent : Int
  narrow : Bool
deriving DecidableEq

/-- A number `significand · 10^exponent`. -/
structure Number where
  significand : Nat
  exponent : Int
deriving DecidableEq

structure Ratio where
  numerator : Nat
  denominator : Nat

def Ratio.scale (r : Ratio) (base : Nat) : Int → Ratio
  | .ofNat n => ⟨r.numerator * base.pow n, r.denominator⟩
  | .negSucc n => ⟨r.numerator, r.denominator * base.pow (n + 1)⟩

namespace Binary

/-- The number in quarters of the distance to the next one. -/
def quarters (b : Binary) : Nat := 4 * b.significand

/-- A number of quarters lies in the interval that rounds to the number. The ends
    of the interval belong to it if the significand is even. -/
def rounds (b : Binary) (r : Ratio) : Bool :=
  let low := (b.quarters - (if b.narrow then 1 else 2)) * r.denominator
  let high := (b.quarters + 2) * r.denominator
  if b.significand % 2 == 0 then low ≤ r.numerator && r.numerator ≤ high
  else low < r.numerator && r.numerator < high

/-- The distance of a ratio from the number, both in quarters, times the
    ratio's denominator. -/
def distance (b : Binary) (r : Ratio) : Nat :=
  let own := b.quarters * r.denominator
  (own - r.numerator) + (r.numerator - own)

/-- The decimal number `n · 10^exponent` in quarters of the number's distance to
    the next one. -/
def inQuarters (b : Binary) (n : Nat) (exponent : Int) : Ratio :=
  ((Ratio.mk n 1).scale 10 exponent).scale 2 (2 - b.exponent)

/-- The neighbours of the number among the multiples of a power of ten. -/
def neighbours (b : Binary) (exponent : Int) : Nat × Nat :=
  let r := ((Ratio.mk b.significand 1).scale 2 b.exponent).scale 10 (-exponent)
  let below := r.numerator / r.denominator
  (below, below + 1)

/-- The nearest multiple of a power of ten that rounds to the number, if one
    does. Of two as near the even one is taken. -/
def onGrid? (b : Binary) (exponent : Int) : Option Number :=
  let (below, above) := b.neighbours exponent
  let low := b.inQuarters below exponent
  let high := b.inQuarters above exponent
  match b.rounds low, b.rounds high with
  | false, false => none
  | true, false => some ⟨below, exponent⟩
  | false, true => some ⟨above, exponent⟩
  | true, true =>
    let near := b.distance low
    let far := b.distance high
    if near < far || (near == far && below % 2 == 0) then some ⟨below, exponent⟩
    else some ⟨above, exponent⟩

/-- The first grid, from `exponent` down, that has a decimal number for this
    one. -/
def firstGrid (b : Binary) (exponent : Int) : Nat → Option Number
  | 0 => none
  | n + 1 =>
    match b.onGrid? exponent with
    | some number => some number
    | none => b.firstGrid (exponent - 1) n

/-- The power of ten that is not above the number, or the one after it. -/
def magnitude (b : Binary) : Int :=
  let digits (n : Nat) : Int := (Nat.toDigits 10 n).length
  match b.exponent with
  | .ofNat n => digits (b.significand * Nat.pow 2 n)
  | .negSucc n =>
    let scaled := b.significand * Nat.pow 5 (n + 1)
    digits scaled - (n + 1)

/-- The decimal number of the fewest digits that rounds to this one. -/
def shortest (b : Binary) : Number :=
  (b.firstGrid b.magnitude 25).getD ⟨b.significand, 0⟩

end Binary

end WordMachine.Decimal
