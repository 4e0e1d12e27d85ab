import WordMachine.Proofs.Disk.Staging
import WordMachine.Proofs.Slot.RoundTrip

/-!
Saves are done as a whole or not at all. `Slot.stage` is a save with all that it does to a
disk on its way: a file is made under a spare name, filled, and moved in place. `Tried` is
a number of such saves, done or refused. Whatever was tried, a path gives back the state
that was last saved to it (`load_of_tried`); the main statement says so together with what
one save changes (`all_or_nothing`).
-/
namespace WordMachine

/-- Both paths lead to the same place. -/
def Disk.SameFile (disk : Disk) (path other : String) : Prop :=
  ∃ place, disk.locate path = .ok place ∧ disk.locate other = .ok place

theorem Disk.SameFile.of_same {first second : Disk} (same : first.SameDirectories second) {path other : String}
    (one : second.SameFile path other) : first.SameFile path other := by
  obtain ⟨place, leads, alsoLeads⟩ := one
  exact ⟨place, same.locate.mpr leads, same.locate.mpr alsoLeads⟩

namespace Slot

/-- A save, with the name of the file that is prepared, and the disk after it, also if it
    is refused. -/
def stage (disk : Disk) (path spare : String) (s : State) : Except SlotError Unit × Disk :=
  match disk.stage path spare (Snapshot.capture s).bytes with
  | (.error error, after) => (.error (.inaccessible path error), after)
  | (.ok (), after) => (.ok (), after)

theorem save_eq_ok_iff {disk after : Disk} {path : String} {s : State} :
    save disk path s = .ok after ↔ disk.replace path (Snapshot.capture s).bytes = .ok after := by
  unfold save
  cases disk.replace path (Snapshot.capture s).bytes with
  | error error => simp
  | ok put => simp

theorem stage_of_save {disk after : Disk} {path spare : String} {s : State} (free : disk.Spare path spare)
    (saved : save disk path s = .ok after) : stage disk path spare s = (.ok (), after) := by
  rw [stage, Disk.stage_of_replace free (save_eq_ok_iff.mp saved)]

theorem stage_of_not_saved {disk : Disk} {path spare : String} {s : State} {error : SlotError}
    (free : disk.Spare path spare) (refused : save disk path s = .error error) :
    ∃ cause, stage disk path spare s = (.error cause, disk) := by
  cases replaced : disk.replace path (Snapshot.capture s).bytes with
  | ok after =>
    rw [save_eq_ok_iff.mpr replaced] at refused
    cases refused
  | error reason =>
    obtain ⟨cause, staged⟩ := Disk.stage_of_refused free replaced
    exact ⟨.inaccessible path cause, by rw [stage, staged]⟩

/-- A save that is done is one that `save` does. -/
theorem save_of_stage {disk after : Disk} {path spare : String} {s : State} (free : disk.Spare path spare)
    (staged : stage disk path spare s = (.ok (), after)) : save disk path s = .ok after := by
  cases saved : save disk path s with
  | ok put =>
    rw [stage_of_save free saved] at staged
    cases staged
    rfl
  | error error =>
    obtain ⟨cause, refused⟩ := stage_of_not_saved free saved
    rw [refused] at staged
    cases staged

/-- A save that is refused leaves the disk as it was, and `save` refuses it too. -/
theorem eq_of_stage_refused {disk after : Disk} {path spare : String} {s : State} {error : SlotError}
    (free : disk.Spare path spare) (staged : stage disk path spare s = (.error error, after)) :
    after = disk ∧ ∃ cause, save disk path s = .error cause := by
  cases saved : save disk path s with
  | ok put =>
    rw [stage_of_save free saved] at staged
    cases staged
  | error cause =>
    obtain ⟨_, refused⟩ := stage_of_not_saved free saved
    rw [refused] at staged
    cases staged
    exact ⟨rfl, cause, rfl⟩

/-- Saves tried one after the other from a disk on: the paths and the states of those
    that were done, the last one first, and the disk after all of them. -/
inductive Tried (disk : Disk) : List (String × State) → Disk → Prop
  | start : Tried disk [] disk
  | saved {log : List (String × State)} {before after : Disk} {path spare : String} {s : State} :
      Tried disk log before → before.Spare path spare → stage before path spare s = (.ok (), after) →
      Tried disk ((path, s) :: log) after
  | refused {log : List (String × State)} {before after : Disk} {path spare : String} {s : State}
      {error : SlotError} :
      Tried disk log before → before.Spare path spare → stage before path spare s = (.error error, after) →
      Tried disk log after

/-- Paths lead where they led before. -/
theorem Tried.sameDirectories {disk after : Disk} {log : List (String × State)} (tried : Tried disk log after) :
    disk.SameDirectories after := by
  induction tried with
  | start => exact .refl disk
  | saved _ free staged ih =>
    obtain ⟨place, -, same, -⟩ := Disk.exists_of_replace (save_eq_ok_iff.mp (save_of_stage free staged))
    exact ih.trans same
  | refused _ free staged ih =>
    obtain ⟨rfl, -⟩ := eq_of_stage_refused free staged
    exact ih

/-- A save does not change what is found at the path of another file. -/
theorem find_of_save_elsewhere {disk after : Disk} {path other : String} {s : State} {entry : Entry}
    (saved : save disk path s = .ok after) (apart : ¬ disk.SameFile path other)
    (found : disk.find other = .ok entry) : after.find other = .ok entry := by
  obtain ⟨place, takes, same, elsewhere⟩ := Disk.exists_of_replace (save_eq_ok_iff.mp saved)
  cases leads : disk.locate other with
  | error error => simp [Disk.find, leads] at found
  | ok there =>
    have different : there ≠ place := by
      rintro rfl
      exact apart ⟨there, takes.locate, leads⟩
    rw [← same.find leads (elsewhere there different).symm, found]

/-- The file of a path has what was last saved to it, as long as no other path that was
    saved to names the same file. -/
theorem find_of_tried {disk after : Disk} {log : List (String × State)} {path : String} {s : State}
    (tried : Tried disk log after) (last : log.lookup path = some s)
    (apart : ∀ done ∈ log, done.1 ≠ path → ¬ disk.SameFile done.1 path) :
    after.find path = .ok (.file (Snapshot.capture s).bytes) := by
  induction tried with
  | start => cases last
  | @saved log before after saved spare t tried free staged ih =>
    have done := save_of_stage free staged
    by_cases here : saved = path
    · subst here
      simp only [List.lookup_cons_self, Option.some.injEq] at last
      subst last
      exact find_of_save done
    · have other : (path == saved) = false := beq_eq_false_iff_ne.mpr (Ne.symm here)
      simp only [List.lookup_cons, other] at last
      have found := ih last fun done member => apart done (List.mem_cons_of_mem _ member)
      refine find_of_save_elsewhere done ?_ found
      intro one
      exact apart (saved, t) List.mem_cons_self here (one.of_same tried.sameDirectories)
  | refused _ free staged ih =>
    obtain ⟨rfl, -⟩ := eq_of_stage_refused free staged
    exact ih last apart

theorem load_of_tried {disk after : Disk} {log : List (String × State)} {path : String} {s : State}
    (tried : Tried disk log after) (last : log.lookup path = some s)
    (apart : ∀ done ∈ log, done.1 ≠ path → ¬ disk.SameFile done.1 path) (inside : s.pc.toNat < Memory.size) :
    load after path = .ok s := by
  refine load_eq_ok_iff.mpr ⟨_, find_of_tried tried last apart, ?_⟩
  rw [decode_bytes, if_pos inside]

/-- A save that is done puts the text of the state at the path and changes no other file,
    directory or listing; a save that is refused changes nothing. After any number of
    saves to different files a path gives back the state of the last one that was done
    to it, if its program counter lies in memory. -/
theorem all_or_nothing (disk : Disk) :
    (∀ path spare s, disk.Spare path spare →
      (∀ after, stage disk path spare s = (.ok (), after) →
        save disk path s = .ok after ∧
        ∃ place, disk.locate path = .ok place ∧
          after.find path = .ok (.file (Snapshot.capture s).bytes) ∧
          (∀ other, other ≠ place → after.get? other = disk.get? other) ∧
          ∀ directory name, name ∈ after.names directory ↔
            name ∈ disk.names directory ∨
              disk.locate directory = .ok place.parent ∧ place.names.getLast? = some name) ∧
      (∀ error after, stage disk path spare s = (.error error, after) →
        after = disk ∧ ∃ cause, save disk path s = .error cause)) ∧
    ∀ log after path s, Tried disk log after → log.lookup path = some s →
      (∀ done ∈ log, done.1 ≠ path → ¬ disk.SameFile done.1 path) → s.pc.toNat < Memory.size →
      load after path = .ok s := by
  refine ⟨?_, fun log after path s => load_of_tried⟩
  intro path spare s free
  refine ⟨?_, fun error after => eq_of_stage_refused free⟩
  intro after staged
  have saved := save_of_stage free staged
  have replaced := save_eq_ok_iff.mp saved
  obtain ⟨place, takes, rfl⟩ := Disk.replace_eq_ok_iff.mp replaced
  refine ⟨saved, place, takes.locate, find_of_save saved, ?_, Disk.mem_names_put takes.below takes.free _⟩
  intro other elsewhere
  rw [Disk.get?_put disk takes.below, if_neg elsewhere]

/-- A save next to an older file, one that is refused because a directory is in its way,
    and a save at another path. -/
theorem all_or_nothing_two_paths :
    let folder : Location := ⟨.above 0, ["saves"]⟩
    let disk : Disk := ⟨[(folder, .directory), (folder.child "old.json", .file [1])]⟩
    let s : State := .start .empty
    let t : State := { s with pc := 5 }
    ∃ between after, stage disk "saves/new.json" ".tmpAAAAAA" s = (.ok (), between) ∧
      between.get? (folder.child "old.json") = some (.file [1]) ∧
      (∃ error, stage between "saves" ".tmpBBBBBB" t = (.error error, between)) ∧
      Tried disk [("other.json", t), ("saves/new.json", s)] after ∧
      load after "saves/new.json" = .ok s ∧ load after "other.json" = .ok t := by
  intro folder disk s t
  let between : Disk := disk.put (folder.child "new.json") (.file (Snapshot.capture s).bytes)
  let after : Disk := between.put ⟨.above 0, ["other.json"]⟩ (.file (Snapshot.capture t).bytes)
  have spare : disk.Spare "saves/new.json" ".tmpAAAAAA" := by
    intro directory given
    have here : disk.directoryFor "saves/new.json" = .ok folder := rfl
    rw [here] at given
    cases given
    rfl
  have spareHere : ∀ path, between.directoryFor path = .ok .working → between.Spare path ".tmpBBBBBB" := by
    intro path here directory given
    rw [here] at given
    cases given
    rfl
  have first : stage disk "saves/new.json" ".tmpAAAAAA" s = (.ok (), between) := stage_of_save spare rfl
  obtain ⟨-, place, leads, -, kept, -⟩ := ((all_or_nothing disk).1 _ _ s spare).1 between first
  have other : folder.child "old.json" ≠ place := by
    have here : disk.locate "saves/new.json" = .ok (folder.child "new.json") := rfl
    rw [here] at leads
    cases leads
    decide
  obtain ⟨error, left, blocked⟩ : ∃ error left, stage between "saves" ".tmpBBBBBB" t = (.error error, left) :=
    ⟨_, _, rfl⟩
  obtain ⟨rfl, -⟩ := ((all_or_nothing between).1 _ _ t (spareHere "saves" rfl)).2 error left blocked
  have second : stage between "other.json" ".tmpBBBBBB" t = (.ok (), after) :=
    stage_of_save (spareHere "other.json" rfl) rfl
  have tried : Tried disk [("other.json", t), ("saves/new.json", s)] after :=
    .saved (.refused (.saved .start spare first) (spareHere "saves" rfl) blocked) (spareHere "other.json" rfl) second
  have different : ¬ disk.SameFile "other.json" "saves/new.json" := by
    rintro ⟨there, one, two⟩
    have here : disk.locate "other.json" = .ok ⟨.above 0, ["other.json"]⟩ := rfl
    have leads : disk.locate "saves/new.json" = .ok (folder.child "new.json") := rfl
    rw [here] at one
    rw [leads, ← Except.ok.inj one] at two
    exact absurd (Except.ok.inj two) (by decide)
  have apart : ∀ done ∈ [("other.json", t), ("saves/new.json", s)], done.1 ≠ "saves/new.json" →
      ¬ disk.SameFile done.1 "saves/new.json" := by
    intro done member elsewhere
    simp only [List.mem_cons, List.not_mem_nil, or_false] at member
    rcases member with rfl | rfl
    · exact different
    · exact absurd rfl elsewhere
  have alsoApart : ∀ done ∈ [("other.json", t), ("saves/new.json", s)], done.1 ≠ "other.json" →
      ¬ disk.SameFile done.1 "other.json" := by
    intro done member elsewhere
    simp only [List.mem_cons, List.not_mem_nil, or_false] at member
    rcases member with rfl | rfl
    · exact absurd rfl elsewhere
    · rintro ⟨there, one, two⟩
      exact different ⟨there, two, one⟩
  exact ⟨between, after, first, kept _ other, ⟨error, blocked⟩, tried,
    (all_or_nothing disk).2 _ _ _ _ tried rfl apart (by decide),
    (all_or_nothing disk).2 _ _ _ _ tried rfl alsoApart (by decide)⟩

end Slot

end WordMachine
