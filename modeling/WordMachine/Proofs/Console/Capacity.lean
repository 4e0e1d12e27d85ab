import WordMachine.Proofs.Console.Turn

/-!
A console whose sink takes so many bytes in all, beside the same console on a sink without
a bound. As long as what is written fits, both do the same; a turn or a request that would
write more fails, and has then written as many of its bytes as fit (`Console.turn_capped`,
`Console.nextInput_capped`).
-/
namespace WordMachine

namespace Sink

/-- The sink that takes so many bytes in all, given what the sink has been given. -/
def capped (sink : Sink) (limit : Nat) : Sink :=
  ⟨(sink.written.toList.take limit).toArray, some (limit - sink.written.size)⟩

/-- As much of a write is done as fits, and it fails if that is not all. -/
theorem write_capped {sink : Sink} (roomy : sink.room = none) {limit : Nat} (fits : sink.written.toList.length ≤ limit)
    (bytes : List UInt8) :
    (sink.capped limit).write bytes
      = ((sink.write bytes).1.capped limit,
          if (sink.write bytes).1.written.toList.length ≤ limit then none else some .outputFull) := by
  obtain ⟨⟨written⟩, room⟩ := sink
  cases roomy
  simp only at fits
  have fit : bytes.length ≤ limit - written.length ↔ written.length + bytes.length ≤ limit := by omega
  have left : limit - written.length - bytes.length = limit - (written.length + bytes.length) := by omega
  simp [write, capped, fit, left, List.take_append]

end Sink

namespace Console

/-- The console on a sink that takes so many bytes in all. -/
def capped (console : Console) (limit : Nat) : Console := { console with sink := console.sink.capped limit }

/-- What a console has written. -/
def said (console : Console) : List UInt8 := console.sink.written.toList

theorem said_write (console : Console) (bytes : List UInt8) :
    (console.write bytes).1.said = console.said ++ bytes.take (console.sink.room.getD bytes.length) := by
  obtain ⟨source, sink, pending, slot, prompt, disk⟩ := console
  exact sink.toList_written_write bytes

theorem said_prefix_write (console : Console) (bytes : List UInt8) : console.said <+: (console.write bytes).1.said := by
  rw [said_write]
  exact List.prefix_append _ _

/-- A write fails because there is no more room. -/
theorem full_of_write_failed {console after : Console} {bytes : List UInt8} {error : DeviceError}
    (failed : console.write bytes = (after, some error)) : error = .outputFull ∧ after.sink.room = some 0 := by
  obtain ⟨source, ⟨written, _ | room⟩, pending, slot, prompt, disk⟩ := console
  · cases failed
  · simp only [write, Sink.write, Prod.mk.injEq] at failed
    obtain ⟨rfl, failed⟩ := failed
    by_cases fits : bytes.length ≤ room
    · simp [fits] at failed
    · rw [if_neg fits, Option.some.injEq] at failed
      exact ⟨failed.symm, congrArg some (Nat.sub_eq_zero_of_le (Nat.le_of_not_le fits))⟩

/-- One console has come to another, both on sinks without a bound, and has only added to
    what it has written. -/
structure Onward (console after : Console) : Prop where
  roomy : after.sink.room = none
  said : console.said <+: after.said

variable {console : Console} {limit : Nat}

theorem Onward.trans {first second third : Console} (onward : Onward first second) (further : Onward second third) :
    Onward first third :=
  ⟨further.roomy, onward.said.trans further.said⟩

theorem onward_write (roomy : console.sink.room = none) (bytes : List UInt8) :
    Onward console (console.write bytes).1 := by
  rw [write_of_roomy roomy]
  exact ⟨rfl, bytes, by simp [said]⟩

theorem write_capped (roomy : console.sink.room = none) (fits : console.said.length ≤ limit) (bytes : List UInt8) :
    (console.capped limit).write bytes
      = ((console.write bytes).1.capped limit,
          if (console.write bytes).1.said.length ≤ limit then none else some .outputFull) := by
  obtain ⟨source, sink, pending, slot, prompt, disk⟩ := console
  simp only [capped, write, Sink.write_capped roomy fits]
  rfl

/-- What comes of a full device: all that would have been written is the beginning of what
    the other console has written. -/
def Stuck (limit : Nat) (full stuck : Console) : Prop := stuck.said = full.said.take limit

theorem stuck_capped (console : Console) (limit : Nat) : Stuck limit console (console.capped limit) := rfl

/-- What fits does not depend on how the writing goes on. -/
theorem Onward.stuck {after stuck : Console} (onward : Onward console after) (beyond : limit < console.said.length)
    (full : Stuck limit console stuck) : Stuck limit after stuck := by
  obtain ⟨more, goesOn⟩ := onward.said
  rw [Stuck, full, ← goesOn, List.take_append_of_le_length (Nat.le_of_lt beyond)]

/-- The second outcome is the first as far as the output fits, and then a failure. -/
structure Truncated {α : Type} (failure : α) (limit : Nat) (full cut : α × Console × State) : Prop where
  fits : full.2.1.said.length ≤ limit → cut = (full.1, full.2.1.capped limit, full.2.2)
  beyond : limit < full.2.1.said.length → ∃ stuck t, cut = (failure, stuck, t) ∧ Stuck limit full.2.1 stuck

theorem Truncated.of_fits {α : Type} {failure outcome : α} {s : State} (fits : console.said.length ≤ limit) :
    Truncated failure limit (outcome, console, s) (outcome, console.capped limit, s) where
  fits := fun _ => rfl
  beyond := fun beyond => absurd fits (Nat.not_le_of_lt beyond)

/-- Once the output does not fit, a failure is all that may follow. -/
theorem Truncated.of_beyond {α : Type} {failure : α} {full : α × Console × State} {stuck : Console} {t : State}
    (onward : Onward console full.2.1) (beyond : limit < console.said.length) (ended : Stuck limit console stuck) :
    Truncated failure limit full (failure, stuck, t) where
  fits := by
    intro all
    exact absurd (Nat.le_trans onward.said.length_le all) (Nat.not_le_of_lt beyond)
  beyond := fun _ => ⟨stuck, t, rfl, onward.stuck beyond ended⟩

/-! ### Turns -/

/-- What follows a write, unless it fails. -/
def proceed (s : State) (next : Console → Option Delivery × Console × State) :
    Console × Option DeviceError → Option Delivery × Console × State
  | (console, some error) => (some (.failed error), console, s)
  | (console, none) => next console

theorem proceed_write (roomy : console.sink.room = none) (bytes : List UInt8) (s : State)
    (next : Console → Option Delivery × Console × State) :
    proceed s next (console.write bytes) = next (console.write bytes).1 := by
  rw [write_of_roomy roomy]
  rfl

/-- A write is done as far as it fits, and followed by what comes next if all of it does. -/
theorem truncated_proceed (roomy : console.sink.room = none) (fits : console.said.length ≤ limit) {bytes : List UInt8}
    {s : State} {next : Console → Option Delivery × Console × State}
    (onward : Onward (console.write bytes).1 (next (console.write bytes).1).2.1)
    (later : (console.write bytes).1.said.length ≤ limit →
      Truncated (some (.failed .outputFull)) limit (next (console.write bytes).1)
        (next ((console.write bytes).1.capped limit))) :
    Truncated (some (.failed .outputFull)) limit (proceed s next (console.write bytes))
      (proceed s next ((console.capped limit).write bytes)) := by
  rw [proceed_write roomy, write_capped roomy fits]
  by_cases room : (console.write bytes).1.said.length ≤ limit
  · rw [if_pos room]
    exact later room
  · rw [if_neg room]
    exact .of_beyond onward (Nat.lt_of_not_le room) (stuck_capped _ limit)

/-- A turn is a prompt and what follows it, on either sink. -/
private theorem turn_capped_of_proceed (roomy : console.sink.room = none) {s : State}
    {next : Console → Option Delivery × Console × State}
    (turns : console.turn s = proceed s next (console.write (bytesOfText console.prompt)))
    (alsoTurns : ∀ limit, (console.capped limit).turn s
      = proceed s next ((console.capped limit).write (bytesOfText console.prompt)))
    (onward : Onward (console.write (bytesOfText console.prompt)).1
      (next (console.write (bytesOfText console.prompt)).1).2.1)
    (later : ∀ limit, (console.write (bytesOfText console.prompt)).1.said.length ≤ limit →
      Truncated (some (.failed .outputFull)) limit (next (console.write (bytesOfText console.prompt)).1)
        (next ((console.write (bytesOfText console.prompt)).1.capped limit))) :
    Onward console (console.turn s).2.1 ∧ ∀ limit, console.said.length ≤ limit →
      Truncated (some (.failed .outputFull)) limit (console.turn s) ((console.capped limit).turn s) := by
  rw [turns]
  refine ⟨?_, ?_⟩
  · rw [proceed_write roomy]
    exact (onward_write roomy _).trans onward
  · intro limit fits
    rw [alsoTurns]
    exact truncated_proceed roomy fits onward (later limit)

/-- A turn on a sink that takes so many bytes in all. -/
theorem turn_capped (roomy : console.sink.room = none) (s : State) :
    Onward console (console.turn s).2.1 ∧ ∀ limit, console.said.length ≤ limit →
      Truncated (some (.failed .outputFull)) limit (console.turn s) ((console.capped limit).turn s) := by
  have asks := onward_write roomy (bytesOfText console.prompt)
  rcases read : console.source.readLine with ⟨reading, rest⟩
  cases refused : refusal reading with
  | some delivery =>
    let next (asked : Console) : Option Delivery × Console × State := (some delivery, { asked with source := rest }, s)
    refine @turn_capped_of_proceed console roomy s next ?_ ?_ ?_ ?_
    · exact turn_of_refusal read refused s
    · intro limit
      exact @turn_of_refusal (console.capped limit) _ _ _ read refused s
    · exact ⟨asks.roomy, List.prefix_rfl⟩
    · intro limit room
      exact .of_fits room
  | none =>
    obtain ⟨line, rfl⟩ : ∃ line, reading = .line line := by
      cases reading with
      | line line => exact ⟨line, rfl⟩
      | closed | failed => cases refused
    obtain ⟨words, answer, t, after, effect⟩ :=
      exists_effect console.slot (Utf8.decodeLossy (chomp line)) s console.disk
    -- Between the two writes the line has its effect.
    let obey (asked : Console) : Console :=
      ⟨rest, asked.sink, console.pending ++ words, console.slot, console.prompt, after⟩
    let next (asked : Console) : Option Delivery × Console × State :=
      proceed t (fun answered => (none, answered, t)) ((obey asked).write (bytesOfText answer))
    let asked := (console.write (bytesOfText console.prompt)).1
    have answers : Onward (obey asked) ((obey asked).write (bytesOfText answer)).1 :=
      @onward_write (obey asked) asks.roomy _
    refine @turn_capped_of_proceed console roomy s next ?_ ?_ ?_ ?_
    · exact turn_of_effect read effect
    · intro limit
      exact @turn_of_effect (console.capped limit) _ _ _ _ _ _ _ read effect
    · have obeys : Onward asked (obey asked) := ⟨asks.roomy, List.prefix_rfl⟩
      have goesOn : next asked = (none, ((obey asked).write (bytesOfText answer)).1, t) :=
        @proceed_write (obey asked) asks.roomy _ _ _
      rw [goesOn]
      exact obeys.trans answers
    · intro limit room
      exact @truncated_proceed (obey asked) limit asks.roomy room _ _ _ ⟨answers.roomy, List.prefix_rfl⟩ fun all => .of_fits all

/-! ### Requests -/

/-- A request for input on a sink that takes so many bytes in all. -/
theorem nextInput_capped (roomy : console.sink.room = none) (s : State) :
    Onward console (console.nextInput s).2.1 ∧ ∀ limit, console.said.length ≤ limit →
      Truncated (.failed .outputFull) limit (console.nextInput s) ((console.capped limit).nextInput s) := by
  revert roomy
  refine nextInput_induction (P := fun console s came => console.sink.room = none →
    Onward console came.2.1 ∧ ∀ limit, console.said.length ≤ limit →
      Truncated (.failed .outputFull) limit came ((console.capped limit).nextInput s)) ?_ ?_ ?_ console s
  · intro console s word rest waiting roomy
    refine ⟨⟨roomy, List.prefix_rfl⟩, fun limit fits => ?_⟩
    rw [@nextInput_of_pending (console.capped limit) word rest waiting]
    exact .of_fits fits
  · intro console s delivery after t empty turned roomy
    obtain ⟨onward, truncated⟩ := turn_capped roomy s
    rw [turned] at onward truncated
    refine ⟨onward, fun limit fits => ⟨?_, ?_⟩⟩
    · intro all
      exact nextInput_of_turn_some empty ((truncated limit fits).fits all)
    · intro beyond
      obtain ⟨stuck, u, turns, full⟩ := (truncated limit fits).beyond beyond
      exact ⟨stuck, u, @nextInput_of_turn_some (console.capped limit) _ _ _ _ empty turns, full⟩
  · intro console s after t came empty turned ih roomy
    obtain ⟨onward, truncated⟩ := turn_capped roomy s
    rw [turned] at onward truncated
    obtain ⟨further, later⟩ := ih onward.roomy
    refine ⟨onward.trans further, fun limit fits => ?_⟩
    by_cases all : after.said.length ≤ limit
    · rw [@nextInput_of_turn_none (console.capped limit) _ _ _ empty ((truncated limit fits).fits all)]
      exact later limit all
    · have beyond := Nat.lt_of_not_le all
      obtain ⟨stuck, u, turns, full⟩ := (truncated limit fits).beyond beyond
      rw [@nextInput_of_turn_some (console.capped limit) _ _ _ _ empty turns]
      exact .of_beyond further beyond full

end Console

end WordMachine
