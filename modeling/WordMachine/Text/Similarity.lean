/-!
How similar two texts are. Characters that both have within reach of the same
place are shared, and the similarity is the mean of three shares: that of the
shared characters in either text, and that of the shared characters which come in
the same order in both.
-/
namespace WordMachine.Similarity

/-- How far apart the places of a shared character may be. -/
def reach (first second : List Char) : Nat := max first.length second.length / 2 - 1

/-- The first place of a character in a text that lies within reach of a place and
    has not been taken. -/
def placeOf? (text : List Char) (reach place : Nat) (taken : List Nat) (c : Char) : Option Nat :=
  (List.range text.length).find? fun other =>
    place ≤ other + reach && other ≤ place + reach && text[other]? == some c && !taken.contains other

/-- The shared characters in the order of the first text, with their places in the
    second; `place` is that of the first character. -/
def sharedAfter (second : List Char) (reach : Nat) :
    Nat → List (Char × Nat) → List Char → List (Char × Nat)
  | _, found, [] => found.reverse
  | place, found, c :: first =>
    match placeOf? second reach place (found.map (·.2)) c with
    | none => sharedAfter second reach (place + 1) found first
    | some other => sharedAfter second reach (place + 1) ((c, other) :: found) first

def shared (first second : List Char) : List (Char × Nat) :=
  sharedAfter second (reach first second) 0 [] first

/-- How many of the shared characters are out of order, in pairs. -/
def swaps (shared : List (Char × Nat)) : Nat :=
  let ordered := shared.mergeSort fun a b => a.2 ≤ b.2
  ((shared.zip ordered).filter fun (a, b) => a.1 ≠ b.1).length / 2

def degree (first second : List Char) : Nat × Nat :=
  let common := shared first second
  let m := common.length
  let a := first.length
  let b := second.length
  if m = 0 then (0, 1) else (m * m * b + m * m * a + (m - swaps common) * a * b, 3 * a * b * m)

/-- A similarity of seven tenths or more. -/
def isHigh (share : Nat × Nat) : Bool := 7 * share.2 ≤ 10 * share.1

/-- The name that is most similar to a text, of those with a high similarity. -/
def closest? (text : String) (names : List String) : Option String :=
  (names.foldl (fun best name =>
    let share := degree text.toList name.toList
    match best with
    | none => if isHigh share then some (name, share) else none
    | some (found, top) =>
      if top.1 * share.2 < share.1 * top.2 then some (name, share) else some (found, top))
    none).map (·.1)

end WordMachine.Similarity
