/-!
White space and the words of a line. `isBlank` holds of the characters with the
property White_Space, and `tokens` are the longest runs without them.
-/
namespace WordMachine.Text

/-- A character of white space. -/
def isBlank (c : Char) : Bool :=
  let n := c.toNat
  (0x09 ≤ n && n ≤ 0x0D) || n == 0x20 || n == 0x85 || n == 0xA0 || n == 0x1680
    || (0x2000 ≤ n && n ≤ 0x200A) || n == 0x2028 || n == 0x2029 || n == 0x202F || n == 0x205F
    || n == 0x3000

/-- The tokens of a text whose first one is still being read from the right:
    the part read so far, and the tokens after it. -/
def extendTokens (c : Char) : List Char × List (List Char) → List Char × List (List Char)
  | ([], later) => if isBlank c then ([], later) else ([c], later)
  | (token, later) => if isBlank c then ([], token :: later) else (c :: token, later)

/-- The words between white space. -/
def tokens (text : List Char) : List (List Char) :=
  match text.foldr extendTokens ([], []) with
  | ([], later) => later
  | (token, later) => token :: later

theorem isBlank_of_isWhitespace {c : Char} (white : c.isWhitespace) : isBlank c := by
  simp only [Char.isWhitespace, Bool.or_eq_true, decide_eq_true_eq] at white
  rcases white with ((rfl | rfl) | rfl) | rfl <;> decide

end WordMachine.Text
