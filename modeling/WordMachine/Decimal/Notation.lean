import WordMachine.Decimal.Shortest
import WordMachine.Text.Numeral

/-!
Decimal notation. A `Spelling` says how a decimal number is spelled, and
`standard` is the spelling in messages: places around the point for numbers of
ordinary size, an exponent for the others, and always a sign that the number is
no integer.
-/
namespace WordMachine.Decimal

/-- How numbers are spelled. The exponent is that of the first digit. -/
structure Spelling where
  /-- The least exponent without exponent mark. -/
  least : Int
  /-- The greatest exponent without exponent mark. -/
  greatest : Int

/-- Plain places from four zeros after the point up to sixteen digits before
    it. -/
def standard : Spelling := ⟨-5, 15⟩

def Number.trim (n : Number) : Number :=
  if n.significand = 0 then ⟨0, 0⟩
  else
    let zeros := ((Numeral.digits n.significand).reverse.takeWhile (· == '0')).length
    ⟨n.significand / Nat.pow 10 zeros, n.exponent + zeros⟩

/-- The text of an exponent: always its sign, and no zeros in front. -/
def exponentText (exponent : Int) : List Char :=
  ['e', if exponent < 0 then '-' else '+'] ++ Numeral.digits exponent.natAbs

/-- The text of a number with the given digits, whose first digit stands at
    `exponent`. -/
def Spelling.text (spelling : Spelling) (digits : List Char) (exponent : Int) : List Char :=
  if spelling.least ≤ exponent ∧ exponent ≤ spelling.greatest then
    if exponent < 0 then
      ['0', '.'] ++ List.replicate (exponent.natAbs - 1) '0' ++ digits
    else
      let whole := exponent.toNat + 1
      let padded := digits ++ List.replicate (whole - digits.length) '0'
      let fraction := padded.drop whole
      padded.take whole ++ ['.'] ++ if fraction.isEmpty then ['0'] else fraction
  else
    let point := if digits.tail.isEmpty then [] else '.' :: digits.tail
    digits.take 1 ++ point ++ exponentText exponent

/-- The binary fraction of the bits of a positive double. -/
def Binary.ofBits (bits : Nat) : Binary :=
  let exponent : Nat := bits / 0x10000000000000 % 0x800
  let fraction := bits % 0x10000000000000
  if exponent = 0 then ⟨fraction, -1074, false⟩
  else ⟨fraction + 0x10000000000000, (exponent : Int) - 1075, fraction == 0 && 1 < exponent⟩

/-- The text of a finite double: the fewest digits that read back as it. -/
def text (value : Float) : String :=
  let bits := value.toBits.toNat
  let sign := if bits < 0x8000000000000000 then [] else ['-']
  let binary := Binary.ofBits (bits % 0x8000000000000000)
  let number := if binary.significand = 0 then ⟨0, 0⟩ else binary.shortest.trim
  let digits := Numeral.digits number.significand
  let exponent := number.exponent + ((digits.length : Int) - 1)
  String.ofList (sign ++ standard.text digits exponent)

end WordMachine.Decimal
