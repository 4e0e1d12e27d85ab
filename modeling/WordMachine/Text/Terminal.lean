import WordMachine.Text.Utf8

/-!
What a terminal shows of a text. Besides characters that it shows, a text may hold
sequences that tell the terminal what to do; they begin with the escape character,
and `visible` leaves them out together with all other controls but white space. A
text without controls is shown as it is (`visible_eq_self`).
-/
namespace WordMachine.Terminal

/-- Where a terminal stands in its input. -/
inductive Mode
  /-- Between sequences. -/
  | plain
  /-- After the escape character. -/
  | escape
  /-- After the escape character and a mark. -/
  | marked
  /-- In a control sequence. -/
  | control
  /-- At the beginning of a string for the device. -/
  | device
  /-- In the parameters of a string for the device. -/
  | deviceParameters
  /-- In the marks after those parameters. -/
  | deviceMarks
  /-- In a string that nothing is done with. -/
  | ignored
  /-- In a string for the system. -/
  | system
deriving DecidableEq

def within (first last c : Char) : Bool := first ≤ c && c ≤ last

def isMark (c : Char) : Bool := within ' ' '/' c

/-- The characters that can end a sequence of the escape character. -/
def isFinal (c : Char) : Bool := within '0' '~' c

/-- The characters that can end a control sequence. -/
def endsControl (c : Char) : Bool := within '@' '~' c

/-- A byte of the character ends an ignored string where bytes have eight bits. -/
def endsString (c : Char) : Bool := (String.utf8EncodeChar c).contains 0x9C

/-- What begins after the escape character. -/
def Mode.opened (c : Char) : Mode :=
  if c = '[' then control
  else if c = ']' then system
  else if c = 'P' then device
  else if c = 'X' ∨ c = '^' ∨ c = '_' then ignored
  else if isMark c then marked
  else if isFinal c then plain
  else escape

/-- Where a character leads that is not shown. The escape character begins a
    sequence anywhere, and CAN and SUB end any. -/
def Mode.next (mode : Mode) (c : Char) : Mode :=
  if c = '\x1b' then escape
  else if c = '\x18' ∨ c = '\x1a' then plain
  else
    match mode with
    | plain => plain
    | escape => opened c
    | marked => if isFinal c then plain else marked
    | control => if endsControl c then plain else control
    | device =>
      if isMark c then deviceMarks
      else if within '0' '?' c then deviceParameters
      else if endsControl c then ignored
      else device
    | deviceParameters =>
      if isMark c then deviceMarks
      else if within '<' '~' c then ignored
      else deviceParameters
    | deviceMarks => if isFinal c then ignored else deviceMarks
    | ignored => if endsString c then plain else ignored
    | system => if c = '\x07' then plain else system

/-- White space other than the space. -/
def isLayout (c : Char) : Bool := c = '\t' || c = '\n' || c = '\x0c' || c = '\r'

/-- A character that is shown between sequences. -/
def isShown (c : Char) : Bool := isLayout c || (' ' ≤ c && c ≠ '\x7f')

/-- The modes in which white space is shown. -/
def Mode.showsLayout : Mode → Bool
  | escape | marked | control => true
  | _ => false

/-- What is shown of a text from a mode on. White space within a sequence suspends
    it: the text after it is shown too, until a control takes the sequence up again
    or a character outside ASCII ends it. -/
def visibleFrom : Mode → Bool → List Char → List Char
  | _, _, [] => []
  | mode, suspended, c :: text =>
    if (mode = .plain ∨ suspended = true) ∧ isShown c = true then
      c :: visibleFrom (if c ≤ '\x7f' then mode else .plain) suspended text
    else if mode.showsLayout && isLayout c then c :: visibleFrom mode true text
    else visibleFrom (mode.next c) false text

def visible (text : String) : String := String.ofList (visibleFrom .plain false text.toList)

theorem visibleFrom_plain_eq_self {text : List Char} (shown : ∀ c ∈ text, isShown c = true) :
    visibleFrom .plain false text = text := by
  induction text with
  | nil => rfl
  | cons c text ih =>
    have first : isShown c = true := shown c (by simp)
    have rest := ih fun d inside => shown d (by simp [inside])
    simp [visibleFrom, first, rest]

theorem visible_eq_self {text : String} (shown : ∀ c ∈ text.toList, isShown c = true) :
    visible text = text := by
  rw [visible, visibleFrom_plain_eq_self shown, String.ofList_toList]

end WordMachine.Terminal
