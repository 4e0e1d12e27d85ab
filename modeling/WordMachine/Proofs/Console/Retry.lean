import WordMachine.Proofs.Console.Turn
import WordMachine.Proofs.Device.Breaks

/-!
A console whose source breaks between lines, beside the same console on a source that does
not. The two are alongside if they have the same to read and are otherwise alike, but for
prompts that only the second has written (`Console.Alongside`). A request for input comes
to the same on both, or it breaks on the second, and then as much of it is left to be done
as of the request on the first (`Alongside.nextInput`).
-/
namespace WordMachine

/-- The second output is the first with so many prompts put in. -/
inductive Reprompted (prompt : String) : Nat → Array UInt8 → Array UInt8 → Prop
  | start (written : Array UInt8) : Reprompted prompt 0 written written
  | both {n : Nat} {first second : Array UInt8} (bytes : List UInt8) :
      Reprompted prompt n first second → Reprompted prompt n (first ++ bytes) (second ++ bytes)
  | again {n : Nat} {first second : Array UInt8} :
      Reprompted prompt n first second → Reprompted prompt (n + 1) first (second ++ Console.bytesOfText prompt)

namespace Console

/-- The source of the second console breaks between the lines that the first has to read,
    and the consoles are otherwise alike, but for so many prompts that only the second has
    written. -/
structure Alongside (n : Nat) (first second : Console) : Prop where
  unread : ∃ bytes, first.source = .ofBytes bytes ∧ Source.Falters true second.source.signals bytes
  roomy : first.sink.room = none
  alsoRoomy : second.sink.room = none
  pending : second.pending = first.pending
  slot : second.slot = first.slot
  prompt : second.prompt = first.prompt
  disk : second.disk = first.disk
  written : Reprompted first.prompt n first.sink.written second.sink.written

variable {n : Nat} {first second : Console}

theorem Alongside.write (alongside : Alongside n first second) (bytes : List UInt8) :
    Alongside n (first.write bytes).1 (second.write bytes).1 := by
  rw [write_of_roomy alongside.roomy, write_of_roomy alongside.alsoRoomy]
  exact { alongside with roomy := rfl, alsoRoomy := rfl, written := alongside.written.both bytes }

/-- A turn on the second console breaks before it has read anything, or it is that of the
    first. -/
theorem Alongside.turn (alongside : Alongside n first second) (s : State) :
    (∃ after, second.turn s = (some (.failed .inputBroken), after, s) ∧ Alongside (n + 1) first after ∧
      after.source.signals.length < second.source.signals.length) ∨
    ∃ outcome one other t, first.turn s = (outcome, one, t) ∧ second.turn s = (outcome, other, t) ∧
      Alongside n one other ∧ ∀ error, outcome ≠ some (.failed error) := by
  obtain ⟨bytes, unread, falters⟩ := alongside.unread
  rcases Source.readLine_of_falters falters with
    ⟨rest, breaks, still, shorter⟩ | ⟨reading, rest, left, alsoReads, reads, still, succeeds⟩
  · left
    refine ⟨_, turn_of_refused alongside.alsoRoomy breaks rfl s, ?_, shorter⟩
    exact { alongside with
      unread := ⟨bytes, unread, still⟩
      alsoRoomy := rfl
      written := by
        rw [alongside.prompt]
        exact alongside.written.again }
  · right
    rw [← unread] at reads
    cases reading with
    | failed error => exact absurd rfl (succeeds error)
    | closed =>
      refine ⟨_, _, _, _, turn_of_closed alongside.roomy reads s, turn_of_closed alongside.alsoRoomy alsoReads s, ?_, nofun⟩
      exact { alongside with
        unread := ⟨left, rfl, still⟩
        roomy := rfl
        alsoRoomy := rfl
        written := by
          rw [alongside.prompt]
          exact alongside.written.both _ }
    | line line =>
      obtain ⟨words, answer, t, after, effect⟩ :=
        exists_effect first.slot (Utf8.decodeLossy (chomp line)) s first.disk
      have alsoEffect : Effect second.slot (Utf8.decodeLossy (chomp line)) s second.disk words answer t after := by
        rw [alongside.slot, alongside.disk]
        exact effect
      refine ⟨_, _, _, _, turn_of_line alongside.roomy reads effect,
        turn_of_line alongside.alsoRoomy alsoReads alsoEffect, ?_, nofun⟩
      exact { alongside with
        unread := ⟨left, rfl, still⟩
        roomy := rfl
        alsoRoomy := rfl
        pending := congrArg (· ++ words) alongside.pending
        disk := rfl
        written := by
          rw [alongside.prompt]
          exact (alongside.written.both _).both _ }

/-- What came of a request on the second console, beside that on the first: it broke, with
    as much of the other still to be done as there is if it is made again, and with less to
    read than before; or both came to the same. -/
inductive Meet (n before : Nat) : Delivery × Console × State → Delivery × Console × State → Prop
  | breaks {one other : Console} {t : State} : Alongside (n + 1) one other → other.source.signals.length < before →
      Meet n before (one.nextInput t) (.failed .inputBroken, other, t)
  | same {delivery : Delivery} {one other : Console} {t : State} : (∀ error, delivery ≠ .failed error) →
      Alongside n one other → Meet n before (delivery, one, t) (delivery, other, t)

theorem Meet.mono {before more : Nat} {one other : Delivery × Console × State} (meet : Meet n before one other)
    (least : before ≤ more) : Meet n more one other := by
  cases meet with
  | breaks alongside shorter => exact .breaks alongside (Nat.lt_of_lt_of_le shorter least)
  | same succeeds alongside => exact .same succeeds alongside

/-- Requests on consoles that are alongside meet. -/
theorem Alongside.nextInput (alongside : Alongside n first second) (s : State) :
    Meet n second.source.signals.length (first.nextInput s) (second.nextInput s) := by
  revert n first
  refine nextInput_induction (P := fun second s came => ∀ {n : Nat} {first : Console}, Alongside n first second →
    Meet n second.source.signals.length (first.nextInput s) came) ?_ ?_ ?_ second s
  · intro second s word rest waiting n first alongside
    rw [nextInput_of_pending (alongside.pending.symm.trans waiting)]
    exact .same nofun { alongside with pending := rfl }
  · intro second s delivery after t empty turned n first alongside
    have alsoEmpty : first.pending = [] := alongside.pending.symm.trans empty
    rcases alongside.turn s with ⟨other, breaks, still, shorter⟩ | ⟨outcome, one, other, u, reads, alsoReads, still, succeeds⟩
    · rw [turned] at breaks
      cases breaks
      exact .breaks still shorter
    · rw [turned] at alsoReads
      cases alsoReads
      rw [nextInput_of_turn_some alsoEmpty reads]
      refine .same ?_ still
      rintro error rfl
      exact succeeds error rfl
  · intro second s after t came empty turned ih n first alongside
    have alsoEmpty : first.pending = [] := alongside.pending.symm.trans empty
    rcases alongside.turn s with ⟨other, breaks, -, -⟩ | ⟨outcome, one, other, u, reads, alsoReads, still, -⟩
    · rw [turned] at breaks
      cases breaks
    · rw [turned] at alsoReads
      cases alsoReads
      rw [nextInput_of_turn_none alsoEmpty reads]
      exact (ih still).mono (Nat.le_of_lt (length_source_turn_lt turned))

end Console

end WordMachine
