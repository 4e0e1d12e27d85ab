import WordMachine.Json.Numeral
import WordMachine.Json.Text

/-!
JSON values that a reader does not keep. `wrongKind` says what a value is where
another kind is wanted, and `skipValue` passes over a value of any kind and any
depth: the lists and objects that are open form a stack, and after each value
`unwind` closes those that end there.
-/
namespace WordMachine.Json

/-- The four characters that may stand between the parts of a text. -/
def isSpace (b : UInt8) : Bool := b == 32 || b == 10 || b == 13 || b == 9

/-- A text without the spaces at its front. -/
def trim (bytes : List UInt8) : List UInt8 := bytes.dropWhile isSpace

theorem length_trim_le (bytes : List UInt8) : (trim bytes).length ≤ bytes.length :=
  length_dropWhile_le _ _

def readLiteral : List UInt8 → List UInt8 → Except Error (List UInt8)
  | [], bytes => .ok bytes
  | _ :: _, [] => .error .endOfValue
  | wanted :: literal, b :: bytes =>
    if b = wanted then readLiteral literal bytes else .error .expectedLiteral

/-- The letters of `null` after the first. -/
def nullTail : List UInt8 := [117, 108, 108]

def trueTail : List UInt8 := [114, 117, 101]

def falseTail : List UInt8 := [97, 108, 115, 101]

/-- The error for a value at the front of a text, which has no spaces there. A
    value that breaks a rule is not looked at for its kind. -/
def wrongKind (wanted : String) (bytes : List UInt8) : Error :=
  let refuse (found : Found) := Error.invalidType found wanted
  let literal (found : Found) (tail rest : List UInt8) :=
    match readLiteral tail rest with
    | .ok _ => refuse found
    | .error error => error
  match bytes with
  | [] => .endOfValue
  | b :: rest =>
    if b = 110 then literal .null nullTail rest
    else if b = 116 then literal (.boolean true) trueTail rest
    else if b = 102 then literal (.boolean false) falseTail rest
    else if b = 45 ∨ isDigit b then
      match readNumber bytes with
      | .ok (number, _) => refuse number.found
      | .error error => error
    else if b = 34 then
      match readText rest with
      | .ok (text, _) => refuse (.text text)
      | .error error => error
    else if b = 91 then refuse .sequence
    else if b = 123 then refuse .map
    else .expectedValue

/-- A list or an object that is open. -/
inductive Frame
  | list
  | object
deriving DecidableEq

namespace Frame

def closer : Frame → UInt8
  | list => 93
  | object => 125

/-- The error of a text that ends within it. -/
def ended : Frame → Error
  | list => .endOfList
  | object => .endOfObject

/-- The error for anything but a comma or the closer after a value. -/
def expectedComma : Frame → Error
  | list => .expectedCommaOrBracket
  | object => .expectedCommaOrBrace

end Frame

/-- What comes after the colon between a name and its value. -/
def readColon (bytes : List UInt8) : Except Error (List UInt8) :=
  match trim bytes with
  | [] => .error .endOfObject
  | b :: rest => if b = 58 then .ok rest else .error .expectedColon

/-- What comes after the name and the colon of a member. -/
def skipName (bytes : List UInt8) : Except Error (List UInt8) :=
  match trim bytes with
  | [] => .error .endOfObject
  | b :: rest =>
    if b = 34 then
      match skipText rest with
      | .error error => .error error
      | .ok rest => readColon rest
    else .error .keyNotText

/-- What comes before the next value in an open list or object. -/
def approach : Frame → List UInt8 → Except Error (List UInt8)
  | .list, bytes => .ok bytes
  | .object, bytes => skipName bytes

/-- Where a reader stands after a value: before another one within the given
    frames, or behind them all. -/
inductive Progress
  | more (frames : List Frame) (rest : List UInt8)
  | done (rest : List UInt8)

/-- Closes the frames that end after a value. -/
def unwind : List Frame → List UInt8 → Except Error Progress
  | [], bytes => .ok (.done bytes)
  | frame :: frames, bytes =>
    match trim bytes with
    | [] => .error frame.ended
    | b :: rest =>
      if b = 44 then
        match approach frame rest with
        | .error error => .error error
        | .ok rest => .ok (.more (frame :: frames) rest)
      else if b = frame.closer then unwind frames rest
      else .error frame.expectedComma

/-- Enters a list or an object, after its opening bracket. -/
def enter (frame : Frame) (frames : List Frame) (bytes : List UInt8) : Except Error Progress :=
  match trim bytes with
  | [] => .error frame.ended
  | b :: rest =>
    if b = frame.closer then unwind frames rest
    else
      match approach frame (b :: rest) with
      | .error error => .error error
      | .ok rest => .ok (.more (frame :: frames) rest)

/-- What comes after a value that is no list and no object. -/
def skipScalar (bytes : List UInt8) : Except Error (List UInt8) :=
  match bytes with
  | [] => .error .endOfValue
  | b :: rest =>
    if b = 110 then readLiteral nullTail rest
    else if b = 116 then readLiteral trueTail rest
    else if b = 102 then readLiteral falseTail rest
    else if b = 45 ∨ isDigit b then
      match Numeral.scan .invalidNumber bytes with
      | .ok (_, rest) => .ok rest
      | .error error => .error error
    else if b = 34 then skipText rest
    else .error .expectedValue

/-- One value, or the opening of one, at the front of a text. -/
def advance (frames : List Frame) (bytes : List UInt8) : Except Error Progress :=
  match trim bytes with
  | 91 :: rest => enter .list frames rest
  | 123 :: rest => enter .object frames rest
  | bytes =>
    match skipScalar bytes with
    | .error error => .error error
    | .ok rest => unwind frames rest

def Progress.rest : Progress → List UInt8
  | more _ rest => rest
  | done rest => rest

theorem length_readLiteral_le {literal bytes rest : List UInt8}
    (read : readLiteral literal bytes = .ok rest) : rest.length ≤ bytes.length := by
  induction literal generalizing bytes with
  | nil =>
    cases read
    exact Nat.le_refl _
  | cons wanted literal ih =>
    rcases bytes with _ | ⟨b, bytes⟩
    · simp [readLiteral] at read
    · simp only [readLiteral] at read
      split at read
      · exact Nat.le_succ_of_le (ih read)
      · simp at read

theorem length_lt_of_trim {bytes rest : List UInt8} {b : UInt8} (trimmed : trim bytes = b :: rest) :
    rest.length < bytes.length := by
  have shorter := length_trim_le bytes
  rw [trimmed] at shorter
  exact shorter

theorem length_readColon_lt {bytes rest : List UInt8} (read : readColon bytes = .ok rest) :
    rest.length < bytes.length := by
  unfold readColon at read
  split at read
  · simp at read
  · next trimmed =>
    split at read
    · cases read
      exact length_lt_of_trim trimmed
    · simp at read

theorem length_skipName_lt {bytes rest : List UInt8} (read : skipName bytes = .ok rest) :
    rest.length < bytes.length := by
  unfold skipName at read
  split at read
  · simp at read
  · next trimmed =>
    have first := length_lt_of_trim trimmed
    split at read
    · split at read
      · simp at read
      · next given =>
        have second := length_skipText_lt given
        have third := length_readColon_lt read
        omega
    · simp at read

theorem length_approach_le {frame : Frame} {bytes rest : List UInt8}
    (read : approach frame bytes = .ok rest) : rest.length ≤ bytes.length := by
  cases frame with
  | list =>
    cases read
    exact Nat.le_refl _
  | object => exact Nat.le_of_lt (length_skipName_lt read)

theorem length_unwind_le {frames : List Frame} {bytes : List UInt8} {progress : Progress}
    (read : unwind frames bytes = .ok progress) : progress.rest.length ≤ bytes.length := by
  induction frames generalizing bytes with
  | nil =>
    cases read
    exact Nat.le_refl _
  | cons frame frames ih =>
    unfold unwind at read
    split at read
    · simp at read
    · next trimmed =>
      have first := length_lt_of_trim trimmed
      split at read
      · split at read
        · simp at read
        · next given =>
          have second := length_approach_le given
          cases read
          simp only [Progress.rest]
          omega
      · split at read
        · have second := ih read
          omega
        · simp at read

theorem length_enter_le {frame : Frame} {frames : List Frame} {bytes : List UInt8} {progress : Progress}
    (read : enter frame frames bytes = .ok progress) : progress.rest.length ≤ bytes.length := by
  unfold enter at read
  split at read
  · simp at read
  · next trimmed =>
    have first := length_lt_of_trim trimmed
    split at read
    · have second := length_unwind_le read
      omega
    · split at read
      · simp at read
      · next given =>
        have second := length_approach_le given
        cases read
        simp only [Progress.rest, List.length_cons] at second ⊢
        omega

theorem length_skipScalar_lt {bytes rest : List UInt8} (read : skipScalar bytes = .ok rest) :
    rest.length < bytes.length := by
  unfold skipScalar at read
  split at read
  · simp at read
  · split at read
    · exact Nat.lt_succ_of_le (length_readLiteral_le read)
    · split at read
      · exact Nat.lt_succ_of_le (length_readLiteral_le read)
      · split at read
        · exact Nat.lt_succ_of_le (length_readLiteral_le read)
        · split at read
          · split at read
            · next given =>
              cases read
              exact Numeral.length_scan_lt given
            · simp at read
          · split at read
            · exact Nat.lt_succ_of_lt (length_skipText_lt read)
            · simp at read

theorem length_advance_lt {frames : List Frame} {bytes : List UInt8} {progress : Progress}
    (read : advance frames bytes = .ok progress) : progress.rest.length < bytes.length := by
  unfold advance at read
  split at read
  · next trimmed =>
    exact Nat.lt_of_le_of_lt (length_enter_le read) (length_lt_of_trim trimmed)
  · next trimmed =>
    exact Nat.lt_of_le_of_lt (length_enter_le read) (length_lt_of_trim trimmed)
  · split at read
    · simp at read
    · next given =>
      have first := length_trim_le bytes
      have second := length_skipScalar_lt given
      have third := length_unwind_le read
      omega

/-- What comes after a value and the frames that are open around it. -/
def skipWithin (frames : List Frame) (bytes : List UInt8) : Except Error (List UInt8) :=
  match _read : advance frames bytes with
  | .error error => .error error
  | .ok (.done rest) => .ok rest
  | .ok (.more frames rest) => skipWithin frames rest
termination_by bytes.length
decreasing_by exact length_advance_lt _read

def skipValue (bytes : List UInt8) : Except Error (List UInt8) := skipWithin [] bytes

theorem length_skipWithin_lt {frames : List Frame} {bytes rest : List UInt8} :
    skipWithin frames bytes = .ok rest → rest.length < bytes.length := by
  fun_induction skipWithin frames bytes with
  | case1 => simp
  | case2 frames bytes rest given =>
    intro read
    cases read
    exact length_advance_lt given
  | case3 frames bytes within rest given ih =>
    intro read
    exact Nat.lt_trans (ih read) (length_advance_lt given)

end WordMachine.Json
