import WordMachine.Text.Printable

/-!
Quoted text, which shows every character of a text unmistakably: quotes and
backslashes are escaped, some controls have a letter, and whatever else is not
printable is shown by its number in hexadecimal.
-/
namespace WordMachine.Text

/-- The hexadecimal digits of a number, in lower case. -/
def hexadecimal (n : Nat) : List Char :=
  if n < 16 then [Nat.digitChar n] else hexadecimal (n / 16) ++ [Nat.digitChar (n % 16)]
termination_by n
decreasing_by omega

def quoteChar (c : Char) : List Char :=
  match c with
  | '\x00' => ['\\', '0']
  | '\t' => ['\\', 't']
  | '\r' => ['\\', 'r']
  | '\n' => ['\\', 'n']
  | '\\' => ['\\', '\\']
  | '"' => ['\\', '"']
  | c => if isPrintable c then [c] else ['\\', 'u', '\x7b'] ++ hexadecimal c.toNat ++ ['\x7d']

def quote (text : List Char) : List Char := '"' :: text.flatMap quoteChar ++ ['"']

end WordMachine.Text
