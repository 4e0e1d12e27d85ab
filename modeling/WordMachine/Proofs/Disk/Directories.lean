import WordMachine.Proofs.Disk.Replace

/-!
What the directories of a disk decide. Where a path leads depends on them alone
(`SameDirectories.locate`), and so does whether it takes a file and where
(`SameDirectories.takes`). A file that is put in place leaves them as they are, so no
number of files put in place changes where paths lead.
-/
namespace WordMachine.Disk

/-- The same directories stand on both disks. -/
def SameDirectories (first second : Disk) : Prop :=
  ∀ place, first.get? place = some .directory ↔ second.get? place = some .directory

theorem SameDirectories.refl (disk : Disk) : SameDirectories disk disk := fun _ => Iff.rfl

theorem SameDirectories.symm {first second : Disk} (same : SameDirectories first second) :
    SameDirectories second first := fun place => (same place).symm

theorem SameDirectories.trans {first second third : Disk} (same : SameDirectories first second)
    (also : SameDirectories second third) : SameDirectories first third :=
  fun place => (same place).trans (also place)

/-- Disks that differ at one place only, where none of them has a directory. -/
theorem SameDirectories.of_free {first second : Disk} {place : Location}
    (free : first.get? place ≠ some .directory) (alsoFree : second.get? place ≠ some .directory)
    (elsewhere : ∀ other, other ≠ place → second.get? other = first.get? other) : SameDirectories first second := by
  intro other
  by_cases here : other = place
  · subst here
    exact ⟨fun stands => absurd stands free, fun stands => absurd stands alsoFree⟩
  · rw [elsewhere other here]

/-- A file that is put where no directory is leaves the directories as they are. -/
theorem sameDirectories_put {disk : Disk} {place : Location} (below : place.names ≠ [])
    (free : disk.get? place ≠ some .directory) (bytes : List UInt8) :
    SameDirectories disk (disk.put place (.file bytes)) := by
  refine .of_free free ?_ ?_
  · rw [get?_put disk below, if_pos rfl]
    nofun
  · intro other elsewhere
    rw [get?_put disk below, if_neg elsewhere]

namespace SameDirectories

variable {first second : Disk}

theorem advance (same : SameDirectories first second) {place next : Location} {step : Step} :
    first.advance place step = .ok next ↔ second.advance place step = .ok next := by
  rw [advance_eq_ok_iff, advance_eq_ok_iff, same place]

theorem walk (same : SameDirectories first second) {start target : Location} {steps : List Step} :
    first.walk start steps = .ok target ↔ second.walk start steps = .ok target := by
  have carried : ∀ {first second : Disk}, SameDirectories first second → ∀ {start : Location},
      first.walk start steps = .ok target → second.walk start steps = .ok target := by
    intro first second same
    induction steps with
    | nil => exact fun walked => walked
    | cons step steps ih =>
      intro start walked
      rw [Disk.walk] at walked ⊢
      cases taken : first.advance start step with
      | error error => simp [taken] at walked
      | ok next =>
        rw [taken] at walked
        rw [same.advance.mp taken]
        exact ih walked
  exact ⟨carried same, carried same.symm⟩

/-- A path leads to the same place on both disks. -/
theorem locate (same : SameDirectories first second) {path : String} {place : Location} :
    first.locate path = .ok place ↔ second.locate path = .ok place := by
  unfold Disk.locate
  split
  · rfl
  · split
    · rfl
    · exact same.walk

/-- A path finds on both disks what stands where it leads. -/
theorem find (same : SameDirectories first second) {path : String} {place : Location}
    (leads : first.locate path = .ok place) (stands : first.get? place = second.get? place) :
    first.find path = second.find path := by
  rw [Disk.find, Disk.find, leads, same.locate.mp leads]
  simp only [stands]

theorem directoryFor (same : SameDirectories first second) {path : String} {directory : Location}
    (given : first.directoryFor path = .ok directory) : second.directoryFor path = .ok directory := by
  unfold Disk.directoryFor at given ⊢
  simp only at given ⊢
  split at given
  · cases given
  · next whole =>
    split at given
    · cases given
    · next short =>
      rw [if_neg whole, if_neg short]
      split at given
      · cases given
      · next location walked =>
        rw [same.walk.mp walked]
        split at given
        · cases given
        · cases given
        · next stands =>
          cases given
          simp only [(same directory).mp stands]

theorem placeFor (same : SameDirectories first second) {path : String} {place : Location}
    (placed : first.placeFor path = .ok place) : second.placeFor path = .ok place := by
  unfold Disk.placeFor at placed ⊢
  split at placed
  · cases placed
  · cases placed
  · next last sound ends =>
    split at placed
    · cases placed
    · next parent walked =>
      simp only [same.walk.mp walked]
      split at placed
      · cases placed
      · next target name taken =>
        simp only [same.advance.mp taken]
        split at placed
        · cases placed
        · next plain =>
          split at placed
          · cases placed
          · next free =>
            cases placed
            rw [if_neg plain, if_neg fun stands => free ((same place).mpr stands)]
      · cases placed

end SameDirectories

/-! ### Paths that take a file -/

/-- A file can be put in place of what the path names, and this is the place. -/
structure Takes (disk : Disk) (path : String) (place : Location) : Prop where
  prepared : ∃ directory, disk.directoryFor path = .ok directory
  whole : Path.hasNull path = false
  placed : disk.placeFor path = .ok place

theorem replace_eq_ok_iff {disk after : Disk} {path : String} {bytes : List UInt8} :
    disk.replace path bytes = .ok after ↔ ∃ place, disk.Takes path place ∧ after = disk.put place (.file bytes) := by
  constructor
  · intro replaced
    unfold replace at replaced
    split at replaced
    · cases replaced
    · next directory prepared =>
      split at replaced
      · cases replaced
      · next whole =>
        split at replaced
        · cases replaced
        · next place placed =>
          cases replaced
          exact ⟨place, ⟨⟨directory, prepared⟩, by simpa using whole, placed⟩, rfl⟩
  · rintro ⟨place, ⟨⟨directory, prepared⟩, whole, placed⟩, rfl⟩
    simp only [replace, prepared, whole, placed]
    rfl

namespace Takes

variable {disk : Disk} {path : String} {place : Location}

theorem below (takes : disk.Takes path place) : place.names ≠ [] := (placeFor_eq_ok takes.placed).2.2.2.1

theorem free (takes : disk.Takes path place) : disk.get? place ≠ some .directory :=
  (placeFor_eq_ok takes.placed).2.2.2.2

/-- The place is the one that the path leads to. -/
theorem locate (takes : disk.Takes path place) : disk.locate path = .ok place := by
  obtain ⟨accepted, walked, -⟩ := placeFor_eq_ok takes.placed
  simp only [Disk.locate, takes.whole, accepted, walked]
  rfl

theorem unique {other : Location} (takes : disk.Takes path place) (again : disk.Takes path other) : place = other := by
  have placed := takes.placed
  rw [again.placed] at placed
  cases placed
  rfl

end Takes

/-- A path takes a file at the same place on both disks. -/
theorem SameDirectories.takes {first second : Disk} (same : SameDirectories first second) {path : String}
    {place : Location} (takes : first.Takes path place) : second.Takes path place := by
  obtain ⟨directory, prepared⟩ := takes.prepared
  exact ⟨⟨directory, same.directoryFor prepared⟩, takes.whole, same.placeFor takes.placed⟩

/-- The place of the file is all that changes when it is put in place. -/
theorem exists_of_replace {disk after : Disk} {path : String} {bytes : List UInt8}
    (replaced : disk.replace path bytes = .ok after) :
    ∃ place, disk.Takes path place ∧ SameDirectories disk after ∧
      ∀ other, other ≠ place → after.get? other = disk.get? other := by
  obtain ⟨place, takes, rfl⟩ := replace_eq_ok_iff.mp replaced
  refine ⟨place, takes, sameDirectories_put takes.below takes.free bytes, ?_⟩
  intro other elsewhere
  rw [get?_put disk takes.below, if_neg elsewhere]

end WordMachine.Disk
