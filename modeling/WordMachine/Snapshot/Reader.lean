import WordMachine.Json.Value
import WordMachine.Snapshot.Basic

/-!
Reading a snapshot from JSON. The text is an object with the members `pc`,
`registers`, `stack` and `memory` in any order, of which only `stack` may be
left out, or a list of the four values in this order. `cur` is another name of
`pc`. Members with other names are passed over. Reading stops at the first
broken rule, and what is missing is found at the end of the object.
-/
namespace WordMachine.Snapshot
open Json

inductive Field
  | pc
  | registers
  | stack
  | memory
deriving DecidableEq

namespace Field

def name : Field → String
  | pc => "pc"
  | registers => "registers"
  | stack => "stack"
  | memory => "memory"

/-- The part that a name in an object stands for. -/
def ofName? (name : List Char) : Option Field :=
  if name = "pc".toList ∨ name = "cur".toList then some pc
  else if name = "registers".toList then some registers
  else if name = "stack".toList then some stack
  else if name = "memory".toList then some memory
  else none

end Field

/-- The parts that have been read. -/
structure Draft where
  pc : Option Word
  registers : Option (List Word)
  stack : Option (List Word)
  memory : Option (List Word)

namespace Draft

def empty : Draft := ⟨none, none, none, none⟩

def has (draft : Draft) : Field → Bool
  | .pc => draft.pc.isSome
  | .registers => draft.registers.isSome
  | .stack => draft.stack.isSome
  | .memory => draft.memory.isSome

/-- The snapshot of the parts; the stack is empty unless it was read. -/
def finish (draft : Draft) : Except Json.Error Snapshot :=
  match draft.pc, draft.registers, draft.memory with
  | none, _, _ => .error (.missingField Field.pc.name)
  | some _, none, _ => .error (.missingField Field.registers.name)
  | some _, some _, none => .error (.missingField Field.memory.name)
  | some pc, some registers, some memory => .ok ⟨pc, registers, draft.stack.getD [], memory⟩

end Draft

/-- The kinds of values that are wanted, as messages name them. -/
def wordKind : String := "u16"

@[inherit_doc wordKind]
def listKind : String := "a sequence"

@[inherit_doc wordKind]
def snapshotKind : String := "struct Snapshot"

def wordOfNumber : Number → Except Json.Error Word
  | .natural n => if n < 65536 then .ok (UInt16.ofNat n) else .error (.invalidValue n wordKind)
  | .negative n => .error (.invalidValue (-(n : Int)) wordKind)
  | .float value => .error (.invalidType (.float value) wordKind)

/-- A word at the front of a text. -/
def readWord (bytes : List UInt8) : Except Json.Error (Word × List UInt8) :=
  match trim bytes with
  | [] => .error .endOfValue
  | b :: rest =>
    if b = 45 ∨ isDigit b then
      match readNumber (b :: rest) with
      | .error error => .error error
      | .ok (number, rest) =>
        match wordOfNumber number with
        | .error error => .error error
        | .ok word => .ok (word, rest)
    else .error (wrongKind wordKind (b :: rest))

/-- Where a reader stands in a list: before another value, or behind it. -/
inductive Place
  | before (rest : List UInt8)
  | behind (rest : List UInt8)

def Place.rest : Place → List UInt8
  | before rest => rest
  | behind rest => rest

/-- Goes on after the opening bracket of a list. -/
def openList (bytes : List UInt8) : Except Json.Error Place :=
  match trim bytes with
  | [] => .error .endOfList
  | b :: rest => if b = 93 then .ok (.behind rest) else .ok (.before (b :: rest))

/-- Goes on after a value of a list. -/
def nextInList (bytes : List UInt8) : Except Json.Error Place :=
  match trim bytes with
  | [] => .error .endOfList
  | b :: rest =>
    if b = 93 then .ok (.behind rest)
    else if b = 44 then
      match trim rest with
      | [] => .error .endOfValue
      | c :: after => if c = 93 then .error .trailingComma else .ok (.before (c :: after))
    else .error .expectedCommaOrBracket

theorem length_readWord_lt {bytes rest : List UInt8} {word : Word}
    (read : readWord bytes = .ok (word, rest)) : rest.length < bytes.length := by
  unfold readWord at read
  split at read
  · simp at read
  · next trimmed =>
    have first := length_lt_of_trim trimmed
    split at read
    · split at read
      · simp at read
      · next given =>
        have second := length_readNumber_lt given
        split at read
        · simp at read
        · cases read
          simp only [List.length_cons] at second
          omega
    · simp at read

theorem length_openList_le {bytes : List UInt8} {place : Place}
    (read : openList bytes = .ok place) : place.rest.length ≤ bytes.length := by
  unfold openList at read
  split at read
  · simp at read
  · next trimmed =>
    have first := length_lt_of_trim trimmed
    split at read
    · cases read
      exact Nat.le_of_lt first
    · cases read
      exact first

theorem length_nextInList_lt {bytes : List UInt8} {place : Place}
    (read : nextInList bytes = .ok place) : place.rest.length < bytes.length := by
  unfold nextInList at read
  split at read
  · simp at read
  · next trimmed =>
    have first := length_lt_of_trim trimmed
    split at read
    · cases read
      exact first
    · split at read
      · split at read
        · simp at read
        · next inner =>
          have second := length_lt_of_trim inner
          split at read
          · simp at read
          · cases read
            simp only [Place.rest, List.length_cons]
            omega
      · simp at read

/-- The words of a list whose next word is at the front of a text, after those
    already found, which come last first. -/
def readWordsAfter (found : List Word) (bytes : List UInt8) : Except Json.Error (List Word × List UInt8) :=
  match _read : readWord bytes with
  | .error error => .error error
  | .ok (word, rest) =>
    match _next : nextInList rest with
    | .error error => .error error
    | .ok (.behind rest) => .ok ((word :: found).reverse, rest)
    | .ok (.before rest) => readWordsAfter (word :: found) rest
termination_by bytes.length
decreasing_by exact Nat.lt_trans (length_nextInList_lt _next) (length_readWord_lt _read)

/-- A list of words at the front of a text. -/
def readWords (bytes : List UInt8) : Except Json.Error (List Word × List UInt8) :=
  match trim bytes with
  | [] => .error .endOfValue
  | b :: rest =>
    if b = 91 then
      match openList rest with
      | .error error => .error error
      | .ok (.behind rest) => .ok ([], rest)
      | .ok (.before rest) => readWordsAfter [] rest
    else .error (wrongKind listKind (b :: rest))

/-- The value of a part, put into the draft. -/
def readField (draft : Draft) (field : Field) (bytes : List UInt8) :
    Except Json.Error (Draft × List UInt8) :=
  match field with
  | .pc => (readWord bytes).map fun (word, rest) => ({ draft with pc := some word }, rest)
  | .registers => (readWords bytes).map fun (words, rest) => ({ draft with registers := some words }, rest)
  | .stack => (readWords bytes).map fun (words, rest) => ({ draft with stack := some words }, rest)
  | .memory => (readWords bytes).map fun (words, rest) => ({ draft with memory := some words }, rest)

/-- A member of the object, after the opening quote of its name. A part that
    occurs a second time is refused at its name. -/
def readMember (draft : Draft) (bytes : List UInt8) : Except Json.Error (Draft × List UInt8) :=
  match readText bytes with
  | .error error => .error error
  | .ok (name, rest) =>
    match Field.ofName? name with
    | some field =>
      if draft.has field then .error (.duplicateField field.name)
      else
        match readColon rest with
        | .error error => .error error
        | .ok rest => readField draft field rest
    | none =>
      match readColon rest with
      | .error error => .error error
      | .ok rest => (skipValue rest).map fun rest => (draft, rest)

/-- Goes on after the opening brace of an object: behind it, or after the
    opening quote of a name. -/
def openObject (bytes : List UInt8) : Except Json.Error Place :=
  match trim bytes with
  | [] => .error .endOfObject
  | b :: rest =>
    if b = 125 then .ok (.behind rest)
    else if b = 34 then .ok (.before rest)
    else .error .keyNotText

/-- Goes on after a member of an object. -/
def nextInObject (bytes : List UInt8) : Except Json.Error Place :=
  match trim bytes with
  | [] => .error .endOfObject
  | b :: rest =>
    if b = 125 then .ok (.behind rest)
    else if b = 44 then
      match trim rest with
      | [] => .error .endOfValue
      | c :: after =>
        if c = 34 then .ok (.before after)
        else if c = 125 then .error .trailingComma
        else .error .keyNotText
    else .error .expectedCommaOrBrace

theorem length_readWordsAfter_lt {found : List Word} {bytes rest : List UInt8} {words : List Word} :
    readWordsAfter found bytes = .ok (words, rest) → rest.length < bytes.length := by
  fun_induction readWordsAfter found bytes with
  | case1 => simp
  | case2 => simp
  | case3 found bytes word after given behind next =>
    intro read
    cases read
    exact Nat.lt_trans (length_nextInList_lt next) (length_readWord_lt given)
  | case4 found bytes word after given before next ih =>
    intro read
    exact Nat.lt_trans (ih read) (Nat.lt_trans (length_nextInList_lt next) (length_readWord_lt given))

theorem length_readWords_lt {bytes rest : List UInt8} {words : List Word}
    (read : readWords bytes = .ok (words, rest)) : rest.length < bytes.length := by
  unfold readWords at read
  split at read
  · simp at read
  · next trimmed =>
    have first := length_lt_of_trim trimmed
    split at read
    · split at read
      · simp at read
      · next opened =>
        cases read
        exact Nat.lt_of_le_of_lt (length_openList_le opened) first
      · next opened =>
        exact Nat.lt_trans (length_readWordsAfter_lt read)
          (Nat.lt_of_le_of_lt (length_openList_le opened) first)
    · simp at read

theorem length_readField_lt {draft after : Draft} {field : Field} {bytes rest : List UInt8}
    (read : readField draft field bytes = .ok (after, rest)) : rest.length < bytes.length := by
  unfold readField at read
  cases field with
  | pc =>
    cases given : readWord bytes with
    | error => simp [given, Except.map] at read
    | ok found =>
      simp only [given, Except.map, Except.ok.injEq, Prod.mk.injEq] at read
      rw [← read.2]
      exact length_readWord_lt given
  | registers | stack | memory =>
    cases given : readWords bytes with
    | error => simp [given, Except.map] at read
    | ok found =>
      simp only [given, Except.map, Except.ok.injEq, Prod.mk.injEq] at read
      rw [← read.2]
      exact length_readWords_lt given

theorem length_readMember_lt {draft after : Draft} {bytes rest : List UInt8}
    (read : readMember draft bytes = .ok (after, rest)) : rest.length < bytes.length := by
  unfold readMember at read
  split at read
  · simp at read
  · next named =>
    have first := length_readText_lt named
    split at read
    · split at read
      · simp at read
      · split at read
        · simp at read
        · next colon =>
          have second := length_readColon_lt colon
          have third := length_readField_lt read
          omega
    · split at read
      · simp at read
      · next remaining colon =>
        have second := length_readColon_lt colon
        cases given : skipValue remaining with
        | error => simp [given, Except.map] at read
        | ok after =>
          simp only [given, Except.map, Except.ok.injEq, Prod.mk.injEq] at read
          have third := length_skipWithin_lt given
          rw [← read.2]
          omega

theorem length_nextInObject_lt {bytes : List UInt8} {place : Place}
    (read : nextInObject bytes = .ok place) : place.rest.length < bytes.length := by
  unfold nextInObject at read
  split at read
  · simp at read
  · next trimmed =>
    have first := length_lt_of_trim trimmed
    split at read
    · cases read
      exact first
    · split at read
      · split at read
        · simp at read
        · next inner =>
          have second := length_lt_of_trim inner
          split at read
          · cases read
            simp only [Place.rest]
            omega
          · split at read <;> simp at read
      · simp at read

/-- The members of an object from the opening quote of a name on. -/
def readMembers (draft : Draft) (bytes : List UInt8) : Except Json.Error (Snapshot × List UInt8) :=
  match _read : readMember draft bytes with
  | .error error => .error error
  | .ok (draft, rest) =>
    match _next : nextInObject rest with
    | .error error => .error error
    | .ok (.behind rest) => draft.finish.map fun snapshot => (snapshot, rest)
    | .ok (.before rest) => readMembers draft rest
termination_by bytes.length
decreasing_by exact Nat.lt_trans (length_nextInObject_lt _next) (length_readMember_lt _read)

/-- A snapshot as an object, after its opening brace. -/
def readObject (bytes : List UInt8) : Except Json.Error (Snapshot × List UInt8) :=
  match openObject bytes with
  | .error error => .error error
  | .ok (.behind rest) => Draft.empty.finish.map fun snapshot => (snapshot, rest)
  | .ok (.before rest) => readMembers Draft.empty rest

/-- A further value of a list that has to hold four. -/
def item (found : Nat) : Except Json.Error Place → Except Json.Error (List UInt8)
  | .error error => .error error
  | .ok (.before rest) => .ok rest
  | .ok (.behind _) => .error (.invalidLength found (snapshotKind ++ " with 4 elements"))

/-- Goes on after the last value of a list that may hold no more. -/
def closeList (bytes : List UInt8) : Except Json.Error (List UInt8) :=
  match trim bytes with
  | [] => .error .endOfList
  | b :: rest =>
    if b = 93 then .ok rest
    else if b = 44 ∧ (trim rest).head? = some 93 then .error .trailingComma
    else .error .trailingCharacters

/-- A snapshot as a list, after its opening bracket. Where the list ends early,
    a stack that is left out counts as read. -/
def readListed (bytes : List UInt8) : Except Json.Error (Snapshot × List UInt8) := do
  let rest ← item 0 (openList bytes)
  let (pc, rest) ← readWord rest
  let rest ← item 1 (nextInList rest)
  let (registers, rest) ← readWords rest
  let rest ← item 3 (nextInList rest)
  let (stack, rest) ← readWords rest
  let rest ← item 3 (nextInList rest)
  let (memory, rest) ← readWords rest
  let rest ← closeList rest
  return (⟨pc, registers, stack, memory⟩, rest)

/-- The snapshot at the front of a text, and what comes after it. -/
def readFront (bytes : List UInt8) : Except Json.Error (Snapshot × List UInt8) :=
  match trim bytes with
  | [] => .error .endOfValue
  | b :: rest =>
    if b = 91 then readListed rest
    else if b = 123 then readObject rest
    else .error (wrongKind snapshotKind (b :: rest))

def parse (bytes : List UInt8) : Except Json.Error Snapshot :=
  match readFront bytes with
  | .error error => .error error
  | .ok (snapshot, rest) => if trim rest = [] then .ok snapshot else .error .trailingCharacters

end WordMachine.Snapshot
