import WordMachine.Proofs.Device.Lines

/-!
Sources that break between lines. A source falters if it gives the bytes of an input and
breaks only at their beginning and behind the ends of lines (`Falters`). Reading a line
from it fails there, without loss, or comes to the same as without the breaks
(`readLine_of_falters`). Breaks that are put at such places make a source falter
(`falters_withBreaks`).
-/
namespace WordMachine.Source

/-- The signals are these bytes, with breaks among them only where no line has been begun.
    The first argument tells whether that is so here. -/
inductive Falters : Bool → List Signal → List UInt8 → Prop
  | nil (begins : Bool) : Falters begins [] []
  | broken {signals : List Signal} {bytes : List UInt8} : Falters true signals bytes →
      Falters true (.broken :: signals) bytes
  | byte (begins : Bool) (b : UInt8) {signals : List Signal} {bytes : List UInt8} : Falters (b == 10) signals bytes →
      Falters begins (.byte b :: signals) (b :: bytes)

namespace Falters

theorem unread {begins : Bool} {signals : List Signal} {bytes : List UInt8} (falters : Falters begins signals bytes) :
    Source.unread ⟨signals⟩ = bytes := by
  induction falters with
  | nil => rfl
  | broken _ ih => exact ih
  | byte begins b _ ih => exact congrArg (b :: ·) ih

theorem replicate {begins : Bool} {signals : List Signal} {bytes : List UInt8} {n : Nat}
    (falters : Falters begins signals bytes) (allowed : n ≠ 0 → begins = true) :
    Falters begins (List.replicate n .broken ++ signals) bytes := by
  induction n with
  | zero => exact falters
  | succ n ih =>
    cases allowed (Nat.succ_ne_zero n)
    exact .broken (ih fun _ => rfl)

/-- Within a line there is no break. -/
theorem lineAfter {begins : Bool} {signals : List Signal} {bytes : List UInt8} (falters : Falters begins signals bytes)
    (taken : List UInt8) (unbroken : begins = true → signals.head? ≠ some .broken) :
    ∃ reading rest left, Source.lineAfter taken signals = (reading, rest) ∧
      Source.lineAfter taken (ofBytes bytes).signals = (reading, (ofBytes left).signals) ∧
      Falters true rest left ∧ ∀ error, reading ≠ .failed error := by
  induction falters generalizing taken with
  | nil =>
    refine ⟨_, [], [], rfl, rfl, .nil true, ?_⟩
    intro error
    split <;> nofun
  | broken _ _ => exact absurd rfl (unbroken rfl)
  | @byte begins b signals bytes falters ih =>
    by_cases ends : b = 10
    · subst ends
      exact ⟨.line (10 :: taken).reverse, signals, bytes, rfl, rfl, falters, nofun⟩
    · have inside : (b == 10) = false := beq_false_of_ne ends
      obtain ⟨reading, rest, left, reads, alsoReads, still, succeeds⟩ := ih (b :: taken) (by rw [inside]; nofun)
      refine ⟨reading, rest, left, ?_, ?_, still, succeeds⟩
      · rw [Source.lineAfter, if_neg ends, reads]
      · rw [ofBytes, List.map_cons, Source.lineAfter, if_neg ends]
        exact alsoReads

end Falters

/-- Reading a line fails at a break, with nothing lost, or comes to the same as without
    breaks. -/
theorem readLine_of_falters {source : Source} {bytes : List UInt8} (falters : Falters true source.signals bytes) :
    (∃ rest, source.readLine = (.failed .inputBroken, rest) ∧ Falters true rest.signals bytes ∧
      rest.signals.length < source.signals.length) ∨
    ∃ reading rest left, source.readLine = (reading, rest) ∧ (ofBytes bytes).readLine = (reading, ofBytes left) ∧
      Falters true rest.signals left ∧ ∀ error, reading ≠ .failed error := by
  obtain ⟨signals⟩ := source
  by_cases breaks : signals.head? = some .broken
  · left
    obtain ⟨later, rfl⟩ := List.head?_eq_some_iff.mp breaks
    cases falters with
    | broken falters => exact ⟨⟨later⟩, rfl, falters, Nat.lt_succ_self _⟩
  · right
    obtain ⟨reading, rest, left, reads, alsoReads, still, succeeds⟩ := falters.lineAfter [] fun _ => breaks
    refine ⟨reading, ⟨rest⟩, left, ?_, ?_, still, succeeds⟩
    · rw [readLine, reads]
    · rw [readLine, alsoReads]

/-! ### Breaks at given places -/

/-- A place at which a source may break without loss: a line begins there, or the input
    ends with the end of a line. -/
def Boundary (bytes : List UInt8) (place : Nat) : Prop := Terminated (bytes.take place)

instance (bytes : List UInt8) (place : Nat) : Decidable (Boundary bytes place) :=
  inferInstanceAs (Decidable (Terminated _))

/-- The signals of bytes that begin at a place, with the breaks among and behind them. -/
def signalsFrom (breaks : List Nat) : Nat → List UInt8 → List Signal
  | place, [] => List.replicate (breaks.count place) .broken
  | place, b :: rest => List.replicate (breaks.count place) .broken ++ .byte b :: signalsFrom breaks (place + 1) rest

theorem signalsFrom_eq (breaks : List Nat) (place : Nat) (bytes : List UInt8) :
    signalsFrom breaks place bytes
      = ((bytes.zipIdx place).flatMap fun (b, place) => List.replicate (breaks.count place) Signal.broken ++ [.byte b])
          ++ List.replicate (breaks.count (place + bytes.length)) .broken := by
  induction bytes generalizing place with
  | nil => rfl
  | cons b rest ih =>
    have moved : place + 1 + rest.length = place + (rest.length + 1) := by omega
    simp [signalsFrom, ih, moved]

theorem signals_withBreaks (bytes : List UInt8) (breaks : List Nat) :
    (withBreaks bytes breaks).signals = signalsFrom breaks 0 bytes := by
  simp [withBreaks, signalsFrom_eq]

theorem terminated_concat (front : List UInt8) (b : UInt8) : Terminated (front ++ [b]) ↔ b = 10 := by
  simp [Terminated]

/-- What is read before a break is at the end of a line. -/
theorem terminated_of_break {front bytes : List UInt8} {breaks : List Nat}
    (boundaries : ∀ place ∈ breaks, Boundary (front ++ bytes) place) (breaking : breaks.count front.length ≠ 0) :
    Terminated front := by
  have member : front.length ∈ breaks := List.count_pos_iff.mp (Nat.pos_of_ne_zero breaking)
  have ended := boundaries _ member
  rw [Boundary, List.take_left] at ended
  exact ended

private theorem falters_signalsFrom {begins : Bool} {front bytes : List UInt8} {breaks : List Nat}
    (boundaries : ∀ place ∈ breaks, Boundary (front ++ bytes) place) (here : begins = true ↔ Terminated front) :
    Falters begins (signalsFrom breaks front.length bytes) bytes := by
  induction bytes generalizing begins front with
  | nil =>
    have none := Falters.replicate (.nil begins) fun breaking => here.mpr (terminated_of_break boundaries breaking)
    rw [List.append_nil] at none
    exact none
  | cons b rest ih =>
    have moved : ∀ place ∈ breaks, Boundary (front ++ [b] ++ rest) place := by
      rw [List.append_assoc]
      exact boundaries
    have later := @ih (b == 10) _ moved (by rw [beq_iff_eq, terminated_concat])
    rw [List.length_append, List.length_singleton] at later
    exact (Falters.byte begins b later).replicate fun breaking => here.mpr (terminated_of_break boundaries breaking)

/-- A source that breaks only at boundaries falters. -/
theorem falters_withBreaks {bytes : List UInt8} {breaks : List Nat}
    (boundaries : ∀ place ∈ breaks, Boundary bytes place) :
    Falters true (withBreaks bytes breaks).signals bytes := by
  rw [signals_withBreaks]
  exact @falters_signalsFrom true [] bytes breaks boundaries (by decide)

end WordMachine.Source
