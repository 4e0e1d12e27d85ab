import WordMachine.Proofs.Machine.Moment
import WordMachine.Proofs.Slot.RoundTrip

/-!
Saves that can be resumed. A console saves only while the program waits at an `in`, and
neither `reg7` nor a load of what was saved there leads away from one. So as long as
nobody else writes to the slot, what it holds can be loaded and goes on with an `in`
(`resumable_of_reached`).
-/
namespace WordMachine

/-- If there is a file at the slot, it can be loaded, and `in` is the next instruction
    of the state that it holds. -/
def Resumable (disk : Disk) (slot : String) : Prop :=
  ∀ bytes, disk.find slot = .ok (.file bytes) → ∃ s, Slot.load disk slot = .ok s ∧ s.atInput = true

/-- A line does not lead away from an `in` unless a load does, and keeps what is true of the
    disk if a save does. -/
theorem Effect.waits {slot : String} {line : List Char} {s t : State} {disk after : Disk} {words : List Word}
    {answer : String} {P : Disk → Prop} (holds : P disk) (waits : s.atInput = true)
    (loads : ∀ {t : State}, Slot.load disk slot = .ok t → t.atInput = true)
    (saves : ∀ {after : Disk}, Slot.save disk slot s = .ok after → P after)
    (effect : Effect slot line s disk words answer t after) : P after ∧ t.atInput = true := by
  cases effect with
  | input | notSaved | notLoaded | refused => exact ⟨holds, waits⟩
  | saved _ saved => exact ⟨saves saved, waits⟩
  | loaded _ loaded => exact ⟨holds, loads loaded⟩
  | registerSet => exact ⟨holds, waits⟩

namespace Resumable

theorem of_no_file {disk : Disk} {slot : String} (unsaved : ∀ bytes, disk.find slot ≠ .ok (.file bytes)) :
    Resumable disk slot := by
  intro bytes found
  exact absurd found (unsaved bytes)

/-- A save at an `in` can be resumed. -/
theorem of_save {disk after : Disk} {slot : String} {s : State} (waits : s.atInput = true)
    (saved : Slot.save disk slot s = .ok after) : Resumable after slot := by
  intro bytes _
  exact ⟨s, by rw [Slot.load_of_save saved, if_pos (State.inside_of_atInput waits)], waits⟩

/-- What is loaded waits at an `in` again. -/
theorem atInput_of_load {disk : Disk} {slot : String} {s : State} (resumable : Resumable disk slot)
    (loaded : Slot.load disk slot = .ok s) : s.atInput = true := by
  obtain ⟨bytes, found, -⟩ := Slot.load_eq_ok_iff.mp loaded
  obtain ⟨t, again, waits⟩ := resumable bytes found
  rw [loaded] at again
  cases again
  exact waits

/-- No line leads away from an `in` or makes the slot one that cannot be resumed. -/
theorem effect {slot : String} {line : List Char} {s t : State} {disk after : Disk} {words : List Word}
    {answer : String} (resumable : Resumable disk slot) (waits : s.atInput = true)
    (effect : Effect slot line s disk words answer t after) : Resumable after slot ∧ t.atInput = true :=
  effect.waits resumable waits resumable.atInput_of_load (of_save waits)

end Resumable

/-- The slot of the moment is the given one and can be resumed, and the machine does not
    ask for input unless it is at an `in`. -/
structure Moment.Sound (slot : String) (x : Moment) : Prop where
  place : x.machine.console.slot = slot
  resumable : Resumable x.machine.console.disk slot
  waits : x.asking = true → x.machine.state.atInput = true

namespace Moment

/-- A turn at the prompt keeps a moment sound. -/
theorem Sound.turn {slot : String} {x : Moment} (sound : x.Sound slot) (asks : x.asking = true)
    {outcome : Option Delivery} {after : Console} {t : State}
    (turned : x.machine.console.turn x.machine.state = (outcome, after, t)) :
    after.slot = slot ∧ Resumable after.disk slot ∧ t.atInput = true := by
  obtain ⟨place, resumable, waits⟩ := sound
  obtain ⟨stays, -, ⟨-, -, kept, rfl, -⟩ | ⟨line, words, answer, -, -, -, effect⟩⟩ := Console.turn_cases turned
  · rw [kept]
    exact ⟨stays.trans place, resumable, waits asks⟩
  · rw [place] at effect
    exact ⟨stays.trans place, resumable.effect (waits asks) effect⟩

theorem Sound.next {slot : String} {x : Moment} (sound : x.Sound slot) : x.next.Sound slot := by
  refine next_cases (P := Sound slot) x ?_ ?_ ?_ ?_ ?_ ?_
  · intro _ _
    exact sound
  · intro _ _ waits
    exact ⟨sound.place, sound.resumable, fun _ => waits⟩
  · intro _ runs busy
    obtain ⟨bytes, t, status, executes⟩ := Machine.exists_execute busy
    have console : x.machine.step.1.console = (x.machine.console.write bytes).1 := by
      rw [Machine.step_of_running runs, executes]
      simp
    refine ⟨?_, ?_, ?_⟩
    · rw [console]
      exact sound.place
    · rw [console]
      exact sound.resumable
    · intro asks
      cases asks
  · intro word rest _ _
    refine ⟨?_, ?_, ?_⟩
    · simpa using sound.place
    · simpa using sound.resumable
    · intro asks
      cases asks
  · intro delivery console s asks _ turned
    obtain ⟨place, resumable, -⟩ := sound.turn asks turned
    refine ⟨?_, ?_, ?_⟩
    · simpa using place
    · simpa using resumable
    · intro asks
      cases asks
  · intro console s asks _ turned
    obtain ⟨place, resumable, waits⟩ := sound.turn asks turned
    exact ⟨place, resumable, fun _ => waits⟩

end Moment

namespace Machine

/-- Starting without a file at the slot, whatever is saved there by a console can be
    loaded after every step and every run, and holds a state that goes on with an `in`
    that has its operand in memory. -/
theorem resumable_of_reached {m n : Machine}
    (unsaved : ∀ bytes, m.console.disk.find m.console.slot ≠ .ok (.file bytes)) (reached : m.Reached n)
    {bytes : List UInt8} (found : n.console.disk.find n.console.slot = .ok (.file bytes)) :
    n.console.slot = m.console.slot ∧ ∃ s, Slot.load n.console.disk n.console.slot = .ok s ∧
      s.pc.toNat ≤ 32766 ∧ s.memory.read? s.pc.toNat = some 20 := by
  have sound : Moment.Sound m.console.slot ⟨n, false⟩ := by
    refine reached.invariant (P := fun n => Moment.Sound m.console.slot ⟨n, false⟩) ?_ ?_
    · intro n sound
      exact Moment.step_invariant (fun x sound => sound.next) sound
    · exact ⟨rfl, .of_no_file unsaved, fun asks => by cases asks⟩
  have place : n.console.slot = m.console.slot := sound.place
  rw [← place] at sound
  obtain ⟨s, loaded, waits⟩ := sound.resumable bytes found
  exact ⟨place, s, loaded, State.atInput_iff_read?.mp waits⟩

/-- A program that waits for a word is saved in its first step. -/
theorem resumable_of_first_step :
    let m : Machine := .new (.start (.padded [20, 32768]))
      ⟨.ofBytes saveLine, .new none, [], "save.json", ">>> ", .empty⟩ none
    (∀ bytes, m.console.disk.find m.console.slot ≠ .ok (.file bytes)) ∧
    ∃ bytes, m.step.1.console.disk.find m.step.1.console.slot = .ok (.file bytes) ∧
      ∃ s, Slot.load m.step.1.console.disk m.step.1.console.slot = .ok s ∧
        s.pc.toNat ≤ 32766 ∧ s.memory.read? s.pc.toNat = some 20 := by
  intro m
  have unsaved : ∀ bytes, m.console.disk.find m.console.slot ≠ .ok (.file bytes) := by
    intro bytes found
    have missing : Disk.empty.find "save.json" = .error .missing := rfl
    rw [show m.console.disk = .empty from rfl, show m.console.slot = "save.json" from rfl, missing] at found
    cases found
  have waits : m.state.atInput = true :=
    State.atInput_iff_read?.mpr ⟨by decide, Memory.read?_padded _ (by decide)⟩
  have saved := Slot.save_empty m.state
  have turned := @Console.turn_of_line m.console _ _ _ _ _ _ _ rfl rfl (effect_saveLine saved)
  have asked := (Console.nextInput_of_turn_none rfl turned).trans (Console.nextInput_of_end rfl rfl rfl m.state)
  have found : m.step.1.console.disk.find m.step.1.console.slot = .ok (.file (Snapshot.capture m.state).bytes) := by
    rw [step_of_running rfl, execute_of_atInput waits, asked]
    exact Slot.find_of_save saved
  exact ⟨unsaved, _, found, (resumable_of_reached unsaved (.step .start) found).2⟩

end Machine

end WordMachine
