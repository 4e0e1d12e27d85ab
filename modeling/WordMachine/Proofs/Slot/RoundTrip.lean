import WordMachine.Proofs.Disk.Replace
import WordMachine.Proofs.Snapshot.Object
import WordMachine.Slot

/-!
Slots hold what was saved to them. The bytes of a state are read as the state if its
program counter lies in memory, and refused otherwise (`decode_bytes`); a path leads
to the bytes that were saved at it (`load_of_save`); and only states that can be
saved and loaded again are ever loaded (`inside_of_load`). The main statement puts
them together (`round_trip`).
-/
namespace WordMachine.Slot

/-- What a slot makes of the bytes of a state. A save does not look at the program
    counter, and a load refuses one outside of memory. -/
theorem decode_bytes (path : String) (s : State) :
    decode path (Snapshot.capture s).bytes
      = if s.pc.toNat < Memory.size then .ok s else .error (.inconsistent (.pcOutside s.pc)) := by
  rw [decode, Snapshot.parse_bytes]
  by_cases inside : s.pc.toNat < Memory.size
  · simp only [Snapshot.restore_capture inside, if_pos inside]
  · have outside : (Snapshot.capture s).restore = .error (.pcOutside s.pc) := if_neg inside
    simp only [outside, if_neg inside]

theorem inside_of_restore {snapshot : Snapshot} {s : State} (restored : snapshot.restore = .ok s) :
    s.pc.toNat < Memory.size := by
  unfold Snapshot.restore at restored
  split at restored
  · next inside =>
    split at restored
    · simp at restored
    · split at restored
      · simp at restored
      · cases restored
        exact inside
  · simp at restored

theorem inside_of_decode {path : String} {bytes : List UInt8} {s : State} (decoded : decode path bytes = .ok s) :
    s.pc.toNat < Memory.size := by
  unfold decode at decoded
  split at decoded
  · simp at decoded
  · split at decoded
    · simp at decoded
    · next restored =>
      cases decoded
      exact inside_of_restore restored

theorem load_eq_ok_iff {disk : Disk} {path : String} {s : State} :
    load disk path = .ok s ↔ ∃ bytes, disk.find path = .ok (.file bytes) ∧ decode path bytes = .ok s := by
  unfold load
  rcases disk.find path with error | _ | bytes
  · simp
  · simp
  · simp

/-- A state that is loaded has its program counter in memory. -/
theorem inside_of_load {disk : Disk} {path : String} {s : State} (loaded : load disk path = .ok s) :
    s.pc.toNat < Memory.size := by
  obtain ⟨bytes, -, decoded⟩ := load_eq_ok_iff.mp loaded
  exact inside_of_decode decoded

/-- The file of a slot is the text of the state that was saved. -/
theorem find_of_save {disk after : Disk} {path : String} {s : State} (saved : save disk path s = .ok after) :
    after.find path = .ok (.file (Snapshot.capture s).bytes) := by
  unfold save at saved
  split at saved
  · simp at saved
  · next replaced =>
    cases saved
    exact Disk.find_of_replace replaced

/-- A load finds what has been saved, unless its program counter is outside. -/
theorem load_of_save {disk after : Disk} {path : String} {s : State} (saved : save disk path s = .ok after) :
    load after path
      = if s.pc.toNat < Memory.size then .ok s else .error (.inconsistent (.pcOutside s.pc)) := by
  rw [load, find_of_save saved]
  exact decode_bytes path s

/-- An empty disk has a place for the default slot. -/
theorem save_empty (s : State) :
    save Disk.empty "save.json" s
      = .ok (Disk.empty.put ⟨.above 0, ["save.json"]⟩ (.file (Snapshot.capture s).bytes)) :=
  rfl

/-- Saving and loading give a state back if its program counter lies in memory, and
    refuse it otherwise; and what can be loaded at all can be saved and loaded again. -/
theorem round_trip (path : String) (s : State) :
    (s.pc.toNat < Memory.size → decode path (Snapshot.capture s).bytes = .ok s) ∧
    (Memory.size ≤ s.pc.toNat →
      decode path (Snapshot.capture s).bytes = .error (.inconsistent (.pcOutside s.pc))) ∧
    (∀ disk after, save disk path s = .ok after →
      after.find path = .ok (.file (Snapshot.capture s).bytes) ∧
      load after path = decode path (Snapshot.capture s).bytes) ∧
    (∀ bytes, decode path bytes = .ok s →
      s.pc.toNat < Memory.size ∧ s.memory.words.length = Memory.size ∧
      decode path (Snapshot.capture s).bytes = .ok s) ∧
    (∀ disk, load disk path = .ok s →
      s.pc.toNat < Memory.size ∧ s.memory.words.length = Memory.size ∧
      ∀ other after place, save other place s = .ok after → load after place = .ok s) := by
  have decoded := decode_bytes path s
  have cells : s.memory.words.length = Memory.size := Memory.length_words s.memory
  refine ⟨?_, ?_, ?_, ?_, ?_⟩
  · intro inside
    rw [decoded, if_pos inside]
  · intro outside
    rw [decoded, if_neg (Nat.not_lt.mpr outside)]
  · intro disk after saved
    exact ⟨find_of_save saved, by rw [load_of_save saved, decoded]⟩
  · intro bytes given
    have inside := inside_of_decode given
    exact ⟨inside, cells, by rw [decoded, if_pos inside]⟩
  · intro disk loaded
    have inside := inside_of_load loaded
    refine ⟨inside, cells, ?_⟩
    intro other after place saved
    rw [load_of_save saved, if_pos inside]

/-- A state with words of sixteen bits in its registers and on its stack is found
    again, also after a second save from what was loaded; with its program counter
    outside of memory it is refused. -/
theorem round_trip_sixteen_bits :
    let s : State := ⟨32767, Vector.replicate 8 65535, [40000, 1], Memory.empty⟩
    let outside : State := { s with pc := 32768 }
    ∃ after, save Disk.empty "save.json" s = .ok after ∧ load after "save.json" = .ok s ∧
      (∀ other again place, save other place s = .ok again → load again place = .ok s) ∧
      decode "save.json" (Snapshot.capture s).bytes = .ok s ∧ s.memory.words.length = Memory.size ∧
      decode "save.json" (Snapshot.capture outside).bytes = .error (.inconsistent (.pcOutside 32768)) := by
  intro s outside
  obtain ⟨within, -, saved, accepted, reloaded⟩ := round_trip "save.json" s
  obtain ⟨-, beyond, -⟩ := round_trip "save.json" outside
  have decoded := within (by decide)
  have loaded := (saved _ _ (save_empty s)).2.trans decoded
  exact ⟨_, save_empty s, loaded, (reloaded _ loaded).2.2, decoded, (accepted _ decoded).2.1, beyond (by decide)⟩

end WordMachine.Slot
