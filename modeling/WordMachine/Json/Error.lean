import WordMachine.Text.Quoted
import WordMachine.Decimal.Notation

/-!
Why a JSON text is refused: a rule of the format is broken, or a value is not of
the kind that is wanted in its place.
-/
namespace WordMachine.Json

/-- What a value turned out to be where another kind was wanted. -/
inductive Found
  | null
  | boolean (value : Bool)
  | integer (value : Int)
  | float (value : Float)
  | text (value : List Char)
  | sequence
  | map

def Found.message : Found → String
  | null => "null"
  | boolean value => s!"boolean `{value}`"
  | integer value => s!"integer `{value}`"
  | float value => "floating point `" ++ Decimal.text value ++ "`"
  | text value => "string " ++ String.ofList (Text.quote value)
  | sequence => "sequence"
  | map => "map"

/-- The first broken rule of a text. The names of what was wanted are the
    reader's. -/
inductive Error
  | endOfValue
  | endOfText
  | endOfObject
  | endOfList
  | expectedValue
  | expectedLiteral
  | expectedColon
  | expectedCommaOrBrace
  | expectedCommaOrBracket
  | trailingComma
  | trailingCharacters
  | keyNotText
  | invalidNumber
  | numberOutOfRange
  | invalidEscape
  | invalidCharacter
  | controlCharacter
  | unfinishedSurrogate
  | loneSurrogate
  | invalidType (found : Found) (wanted : String)
  | invalidValue (value : Int) (wanted : String)
  | invalidLength (length : Nat) (wanted : String)
  | missingField (name : String)
  | duplicateField (name : String)

def Error.message : Error → String
  | endOfValue => "EOF while parsing a value"
  | endOfText => "EOF while parsing a string"
  | endOfObject => "EOF while parsing an object"
  | endOfList => "EOF while parsing a list"
  | expectedValue => "expected value"
  | expectedLiteral => "expected ident"
  | expectedColon => "expected `:`"
  | expectedCommaOrBrace => "expected `,` or `\x7d`"
  | expectedCommaOrBracket => "expected `,` or `]`"
  | trailingComma => "trailing comma"
  | trailingCharacters => "trailing characters"
  | keyNotText => "key must be a string"
  | invalidNumber => "invalid number"
  | numberOutOfRange => "number out of range"
  | invalidEscape => "invalid escape"
  | invalidCharacter => "invalid unicode code point"
  | controlCharacter => "control character (\\u0000-\\u001F) found while parsing a string"
  | unfinishedSurrogate => "unexpected end of hex escape"
  | loneSurrogate => "lone leading surrogate in hex escape"
  | invalidType found wanted => s!"invalid type: {found.message}, expected {wanted}"
  | invalidValue value wanted => s!"invalid value: integer `{value}`, expected {wanted}"
  | invalidLength length wanted => s!"invalid length {length}, expected {wanted}"
  | missingField name => s!"missing field `{name}`"
  | duplicateField name => s!"duplicate field `{name}`"

end WordMachine.Json
