import WordMachine.Snapshot.Basic
import WordMachine.Text.Numeral
import WordMachine.Text.Utf8

/-!
The text of a snapshot: a JSON object with the members `pc`, `registers`,
`stack` and `memory` in this order, without spaces.
-/
namespace WordMachine.Snapshot

/-- Words in decimal, with commas between them. -/
def numerals (words : List Word) : List Char :=
  [','].intercalate (words.map fun w => Numeral.digits w.toNat)

def renderList (words : List Word) : List Char := '[' :: numerals words ++ [']']

/-- A member of the object: a name and the text of its value. -/
def member (name : String) (value : List Char) : List Char :=
  '"' :: name.toList ++ ['"', ':'] ++ value

def render (snapshot : Snapshot) : List Char :=
  '\x7b' :: [','].intercalate [
    member "pc" (Numeral.digits snapshot.pc.toNat),
    member "registers" (renderList snapshot.registers),
    member "stack" (renderList snapshot.stack),
    member "memory" (renderList snapshot.memory)] ++ ['\x7d']

def bytes (snapshot : Snapshot) : List UInt8 := Utf8.encode snapshot.render

end WordMachine.Snapshot
