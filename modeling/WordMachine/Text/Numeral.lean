/-!
Decimal numbers as text. `digits` writes a number without leading zeros, and
`parse64` reads one that fits in sixty-four bits, with an optional plus sign and
any number of leading zeros. A numeral is read from the left, so the first
character that is no digit and the digit that makes the number too large
compete by their places (`accumulate`).
-/
namespace WordMachine.Numeral

/-- The decimal digit of a number below ten. -/
def digit (n : Nat) : Char := Char.ofNat (48 + n)

def digits (n : Nat) : List Char :=
  if n < 10 then [digit n] else digits (n / 10) ++ [digit (n % 10)]
termination_by n
decreasing_by omega

def value? (c : Char) : Option Nat :=
  if '0' ≤ c ∧ c ≤ '9' then some (c.toNat - 48) else none

inductive Refusal
  | empty
  | invalidDigit
  | tooLarge
deriving DecidableEq

def Refusal.message : Refusal → String
  | empty => "cannot parse integer from empty string"
  | invalidDigit => "invalid digit found in string"
  | tooLarge => "number too large to fit in target type"

/-- Numbers of sixty-four bits are below this one. -/
def bound : Nat := 0x10000000000000000

/-- The number of the digits of `n` followed by further ones. -/
def accumulate (n : Nat) : List Char → Except Refusal Nat
  | [] => .ok n
  | c :: text =>
    match value? c with
    | none => .error .invalidDigit
    | some d => if 10 * n + d < bound then accumulate (10 * n + d) text else .error .tooLarge

/-- The number that a text writes. -/
def parse64 : List Char → Except Refusal Nat
  | [] => .error .empty
  | ['+'] => .error .invalidDigit
  | '+' :: text => accumulate 0 text
  | text => accumulate 0 text

end WordMachine.Numeral
