import WordMachine.Proofs.Disk.Directories

/-!
How a file comes into place. It is made under a spare name in the directory of the path,
filled, and moved to where the path leads; if it cannot be moved it is removed again.
Whatever name was spare, this is what `Disk.replace` says: a file that comes into place
leaves nothing else behind (`stage_of_replace`), and one that does not leaves nothing at
all (`stage_of_refused`).
-/
namespace WordMachine.Disk

/-- Moves what stands at a location in place of what a path names. -/
def move (disk : Disk) (source : Location) (path : String) : Except DiskError Disk :=
  if Path.hasNull path then .error .invalid
  else
    match disk.placeFor path, disk.get? source with
    | .error error, _ => .error error
    | .ok _, none => .error .missing
    | .ok place, some entry => .ok ((disk.erase source).put place entry)

/-- A file is made, filled and moved in place, or removed if it cannot be moved. The disk
    is the one after all of this, also after a refusal. -/
def stage (disk : Disk) (path spare : String) (bytes : List UInt8) : Except DiskError Unit × Disk :=
  match disk.directoryFor path with
  | .error error => (.error error, disk)
  | .ok directory =>
    let made := disk.put (directory.child spare) (.file [])
    let filled := made.put (directory.child spare) (.file bytes)
    match filled.move (directory.child spare) path with
    | .error error => (.error error, filled.erase (directory.child spare))
    | .ok moved => (.ok (), moved)

/-- Nothing has the name in the directory of the path, if there is one. -/
def Spare (disk : Disk) (path name : String) : Prop :=
  ∀ directory, disk.directoryFor path = .ok directory → disk.get? (directory.child name) = none

theorem put_put (disk : Disk) (place : Location) (first second : Entry) :
    (disk.put place first).put place second = disk.put place second := by
  simp [put, List.filter_filter]

/-- What is put where nothing was and then taken away again leaves no trace. -/
theorem erase_put {disk : Disk} {place : Location} (below : place.names ≠ []) (nothing : disk.get? place = none)
    (entry : Entry) : (disk.put place entry).erase place = disk := by
  rw [get?, if_neg below, List.lookup_eq_none_iff] at nothing
  have kept : disk.entries.filter (·.1 ≠ place) = disk.entries := by
    refine List.filter_eq_self.mpr ?_
    intro stored member
    have apart := nothing stored member
    simpa using Ne.symm (beq_eq_false_iff_ne.mp (by simpa using apart))
  obtain ⟨entries⟩ := disk
  simp only [put, erase, List.filter_cons, ne_eq, not_true_eq_false, decide_false, Bool.false_eq_true, if_false,
    List.filter_filter, Bool.and_self]
  simpa using kept

theorem names_child (place : Location) (name : String) : (place.child name).names ≠ [] := by
  simp [Location.child]

section Filled
variable {disk : Disk} {place : Location} {path : String} {bytes : List UInt8}

/-- A move from a place that was free goes where the path takes a file. -/
theorem move_of_placeFor (below : place.names ≠ []) (nothing : disk.get? place = none)
    (whole : Path.hasNull path = false) {target : Location} (placed : disk.placeFor path = .ok target) :
    (disk.put place (.file bytes)).move place path = .ok (disk.put target (.file bytes)) := by
  have free : disk.get? place ≠ some .directory := by
    rw [nothing]
    nofun
  have same := sameDirectories_put below free bytes
  have stands : (disk.put place (.file bytes)).get? place = some (.file bytes) := by
    rw [get?_put disk below, if_pos rfl]
  rw [move, if_neg (by simp [whole]), same.placeFor placed, stands]
  simp only [erase_put below nothing]

/-- Only a path that takes a file is moved to. -/
theorem placeFor_of_move (below : place.names ≠ []) (nothing : disk.get? place = none) {after : Disk}
    (moved : (disk.put place (.file bytes)).move place path = .ok after) :
    Path.hasNull path = false ∧ ∃ target, disk.placeFor path = .ok target := by
  have free : disk.get? place ≠ some .directory := by
    rw [nothing]
    nofun
  have same := (sameDirectories_put below free bytes).symm
  unfold move at moved
  split at moved
  · cases moved
  · next whole =>
    split at moved
    · cases moved
    · cases moved
    · next target entry placed _ => exact ⟨by simpa using whole, target, same.placeFor placed⟩

end Filled

/-- A file that comes into place is all that there is to see. -/
theorem stage_of_replace {disk after : Disk} {path spare : String} {bytes : List UInt8} (free : disk.Spare path spare)
    (replaced : disk.replace path bytes = .ok after) : disk.stage path spare bytes = (.ok (), after) := by
  obtain ⟨place, takes, rfl⟩ := replace_eq_ok_iff.mp replaced
  obtain ⟨directory, prepared⟩ := takes.prepared
  have moved : (disk.put (directory.child spare) (.file bytes)).move (directory.child spare) path
      = .ok (disk.put place (.file bytes)) :=
    move_of_placeFor (names_child directory spare) (free directory prepared) takes.whole takes.placed
  simp only [stage, prepared, put_put, moved]

/-- A file that does not come into place leaves the disk as it was. -/
theorem stage_of_refused {disk : Disk} {path spare : String} {bytes : List UInt8} {error : DiskError}
    (free : disk.Spare path spare) (refused : disk.replace path bytes = .error error) :
    ∃ cause, disk.stage path spare bytes = (.error cause, disk) := by
  unfold stage
  cases prepared : disk.directoryFor path with
  | error cause => exact ⟨cause, rfl⟩
  | ok directory =>
    have below := names_child directory spare
    have nothing := free directory prepared
    simp only [put_put]
    cases moved : (disk.put (directory.child spare) (.file bytes)).move (directory.child spare) path with
    | error cause => exact ⟨cause, by simp only [erase_put below nothing]⟩
    | ok after =>
      obtain ⟨whole, target, placed⟩ := placeFor_of_move below nothing moved
      have takes : disk.Takes path target := ⟨⟨directory, prepared⟩, whole, placed⟩
      rw [replace_eq_ok_iff.mpr ⟨target, takes, rfl⟩] at refused
      cases refused

/-! ### Listings -/

theorem mem_names_iff {disk : Disk} {path name : String} :
    name ∈ disk.names path ↔ ∃ directory, disk.locate path = .ok directory ∧
      ∃ stored ∈ disk.entries, stored.1.parent = directory ∧ stored.1.names.getLast? = some name := by
  unfold names
  cases disk.locate path with
  | error error => simp
  | ok directory =>
    simp only [List.mem_mergeSort, List.mem_filterMap, Except.ok.injEq, exists_eq_left']
    refine exists_congr fun stored => and_congr_right fun _ => ?_
    split <;> simp_all

/-- A file that is put in place is listed in its directory, and no other listing
    changes. -/
theorem mem_names_put {disk : Disk} {place : Location} (below : place.names ≠ [])
    (free : disk.get? place ≠ some .directory) (bytes : List UInt8) (path name : String) :
    name ∈ (disk.put place (.file bytes)).names path ↔
      name ∈ disk.names path ∨ disk.locate path = .ok place.parent ∧ place.names.getLast? = some name := by
  have same := sameDirectories_put below free bytes
  rw [mem_names_iff, mem_names_iff]
  constructor
  · rintro ⟨directory, leads, stored, member, inside, last⟩
    rw [← same.locate] at leads
    rcases List.mem_cons.mp member with rfl | old
    · cases inside
      exact .inr ⟨leads, last⟩
    · exact .inl ⟨directory, leads, stored, (List.mem_filter.mp old).1, inside, last⟩
  · rintro (⟨directory, leads, stored, member, inside, last⟩ | ⟨leads, last⟩)
    · refine ⟨directory, same.locate.mp leads, ?_⟩
      by_cases here : stored.1 = place
      · exact ⟨(place, .file bytes), List.mem_cons_self, by rw [← here, inside], by rw [← here, last]⟩
      · exact ⟨stored, List.mem_cons_of_mem _ (List.mem_filter.mpr ⟨member, by simpa using here⟩), inside, last⟩
    · exact ⟨place.parent, same.locate.mp leads, (place, .file bytes), List.mem_cons_self, rfl, last⟩

end WordMachine.Disk
