import WordMachine.Proofs.Disk.Found
import WordMachine.Proofs.Slot.AllOrNothing

/-!
Disks that are alike for a slot. `AlikeBut` disks differ at most in the file of the slot, which
is as it is when saves were made on one of them and not on the other; a save is done on
both or refused on both for the same reason (`AlikeBut.save`, `AlikeBut.refused`), and one
more save on the second keeps them alike (`AlikeBut.save_second`). `SharesFile` disks have the
same file at the slot and may differ everywhere else. What is loaded from them is the same,
and so is what becomes of a save (`SharesFile.save`, `SharesFile.refused`).
-/
namespace WordMachine

/-- The disks are the same, or the slot takes a file and they are the same elsewhere. -/
def Disk.AlikeBut (slot : String) (first second : Disk) : Prop :=
  first = second ∨ ∃ place, first.Takes slot place ∧ second.get? place ≠ some .directory ∧
    ∀ other, other ≠ place → second.get? other = first.get? other

namespace Disk.AlikeBut

variable {slot : String} {first second : Disk}

/-- The same stands on both disks wherever the slot does not lead. -/
theorem get? (alike : AlikeBut slot first second) {place : Location} (elsewhere : first.locate slot ≠ .ok place) :
    second.get? place = first.get? place := by
  obtain rfl | ⟨there, takes, -, same⟩ := alike
  · rfl
  · refine same place ?_
    rintro rfl
    exact elsewhere takes.locate

/-- A slot that takes a file on one of the disks takes it there on the other one too. -/
theorem takes (alike : AlikeBut slot first second) {place : Location} :
    first.Takes slot place ↔ second.Takes slot place := by
  obtain rfl | ⟨there, takes, free, same⟩ := alike
  · rfl
  · have directories := SameDirectories.of_free takes.free free same
    exact ⟨directories.takes, directories.symm.takes⟩

theorem get?_of_ne (alike : AlikeBut slot first second) {place other : Location} (takes : first.Takes slot place)
    (elsewhere : other ≠ place) : second.get? other = first.get? other := by
  refine alike.get? ?_
  rw [takes.locate]
  rintro ⟨⟩
  exact elsewhere rfl

theorem put (alike : AlikeBut slot first second) {place : Location} (takes : first.Takes slot place)
    (bytes : List UInt8) :
    AlikeBut slot (first.put place (.file bytes)) (second.put place (.file bytes)) := by
  have directories := sameDirectories_put takes.below takes.free bytes
  refine .inr ⟨place, directories.takes takes, ?_, ?_⟩
  · rw [get?_put second takes.below, if_pos rfl]
    nofun
  · intro other elsewhere
    rw [get?_put second takes.below, get?_put first takes.below, if_neg elsewhere, if_neg elsewhere]
    exact alike.get?_of_ne takes elsewhere

theorem put_second (alike : AlikeBut slot first second) {place : Location} (takes : first.Takes slot place)
    (bytes : List UInt8) : AlikeBut slot first (second.put place (.file bytes)) := by
  refine .inr ⟨place, takes, ?_, ?_⟩
  · rw [get?_put second takes.below, if_pos rfl]
    nofun
  · intro other elsewhere
    rw [get?_put second takes.below, if_neg elsewhere]
    exact alike.get?_of_ne takes elsewhere

variable {s : State}

theorem save (alike : AlikeBut slot first second) {after : Disk} (saved : Slot.save first slot s = .ok after) :
    ∃ left, Slot.save second slot s = .ok left ∧ AlikeBut slot after left := by
  obtain ⟨place, takes, rfl⟩ := replace_eq_ok_iff.mp (Slot.save_eq_ok_iff.mp saved)
  refine ⟨second.put place (.file (Snapshot.capture s).bytes), ?_, alike.put takes _⟩
  exact Slot.save_eq_ok_iff.mpr (replace_eq_ok_iff.mpr ⟨place, alike.takes.mp takes, rfl⟩)

theorem refused (alike : AlikeBut slot first second) {error : SlotError}
    (refused : Slot.save first slot s = .error error) : Slot.save second slot s = .error error := by
  obtain rfl | ⟨place, takes, -, -⟩ := alike
  · exact refused
  · rw [Slot.save_eq_ok_iff.mpr (replace_eq_ok_iff.mpr ⟨place, takes, rfl⟩)] at refused
    cases refused

theorem save_second (alike : AlikeBut slot first second) {left : Disk} (saved : Slot.save second slot s = .ok left) :
    AlikeBut slot first left := by
  obtain ⟨place, takes, rfl⟩ := replace_eq_ok_iff.mp (Slot.save_eq_ok_iff.mp saved)
  exact alike.put_second (alike.takes.mpr takes) _

end Disk.AlikeBut

/-- The slot leads to files on both disks that hold the same. -/
def Disk.SharesFile (slot : String) (first second : Disk) : Prop :=
  ∃ bytes, first.find slot = .ok (.file bytes) ∧ second.find slot = .ok (.file bytes)

namespace Disk.SharesFile

variable {slot : String} {first second : Disk} {s : State}

/-- A slot that can be loaded leads to a file. -/
theorem of_load {disk : Disk} (loaded : Slot.load disk slot = .ok s) : SharesFile slot disk disk := by
  obtain ⟨bytes, found, -⟩ := Slot.load_eq_ok_iff.mp loaded
  exact ⟨bytes, found, found⟩

theorem symm (shares : SharesFile slot first second) : SharesFile slot second first := by
  obtain ⟨bytes, found, alsoFound⟩ := shares
  exact ⟨bytes, alsoFound, found⟩

theorem load (shares : SharesFile slot first second) : Slot.load first slot = Slot.load second slot := by
  obtain ⟨bytes, found, alsoFound⟩ := shares
  rw [Slot.load, Slot.load, found, alsoFound]

/-- A save that is refused on one disk is refused on the other for the same reason. -/
theorem refused (shares : SharesFile slot first second) {error : SlotError}
    (refused : Slot.save first slot s = .error error) : Slot.save second slot s = .error error := by
  obtain ⟨bytes, found, alsoFound⟩ := shares
  unfold Slot.save at refused ⊢
  cases replaced : first.replace slot (Snapshot.capture s).bytes with
  | ok after => simp [replaced] at refused
  | error cause =>
    rw [replaced] at refused
    rw [(replace_of_find alsoFound).mpr ((replace_of_find found).mp replaced)]
    exact refused

theorem save (shares : SharesFile slot first second) {after : Disk} (saved : Slot.save first slot s = .ok after) :
    ∃ left, Slot.save second slot s = .ok left ∧ SharesFile slot after left := by
  cases alsoSaved : Slot.save second slot s with
  | error error =>
    rw [shares.symm.refused alsoSaved] at saved
    cases saved
  | ok left => exact ⟨left, rfl, _, Slot.find_of_save saved, Slot.find_of_save alsoSaved⟩

end Disk.SharesFile

end WordMachine
