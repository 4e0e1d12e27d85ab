import WordMachine.Text.Blank
import WordMachine.Text.Numeral
import WordMachine.Text.Quoted
import WordMachine.Word

/-!
The lines of a console. A line that begins with `save`, `load` or `reg7` is a
command, and every other line is input for the program. The value of `reg7` is
the last token of its line, and there must be one besides the first.
-/
namespace WordMachine

/-- What a line asks for. -/
inductive Command
  | save
  | load
  | setRegister7 (value : Word)
  | input (text : String)
deriving DecidableEq

inductive CommandError
  | missingValue
  | invalidValue (token : String)
  | outOfRange (value : Nat)
deriving DecidableEq

def CommandError.message : CommandError → String
  | missingValue => "reg7 needs a value"
  | invalidValue token => "invalid register value " ++ String.ofList (Text.quote token.toList)
  | outOfRange value => s!"register value {value} exceeds {Word.mask.toNat}"

namespace Command

def beginsWith (start text : String) : Bool := start.toList.isPrefixOf text.toList

/-- The command of the tokens that follow `reg7`. -/
def ofTokens (tokens : List (List Char)) : Except CommandError Command :=
  match tokens.getLast? with
  | none => .error .missingValue
  | some token =>
    match Numeral.parse64 token with
    | .error _ => .error (.invalidValue (String.ofList token))
    | .ok value =>
      if value ≤ Word.mask.toNat then .ok (.setRegister7 (UInt16.ofNat value))
      else .error (.outOfRange value)

def parse (line : String) : Except CommandError Command :=
  if beginsWith "save" line then .ok .save
  else if beginsWith "load" line then .ok .load
  else if beginsWith "reg7" line then ofTokens (Text.tokens line.toList).tail
  else .ok (.input line)

end Command

end WordMachine
