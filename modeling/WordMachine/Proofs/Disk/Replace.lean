import WordMachine.Disk

/-!
Files put in place. A file takes a place where no directory is, and every step of a
path is taken from a directory, so the paths that led somewhere before still lead
there (`walk_put`). Hence the path that a file was put in place of finds the file
(`find_of_replace`).
-/
namespace WordMachine.Disk

theorem advance_eq_ok_iff {disk : Disk} {place next : Location} {step : Step} :
    disk.advance place step = .ok next ↔ disk.get? place = some .directory ∧
      match step with
      | .here => place = next
      | .up => place.parent = next
      | .name name => name.utf8ByteSize ≤ Path.longestName ∧ place.child name = next := by
  unfold advance
  rcases disk.get? place with _ | _ | _
  · simp
  · simp
  · cases step with
    | here | up => simp
    | name name =>
      by_cases long : Path.longestName < name.utf8ByteSize
      · simp [long, Nat.not_le.mpr long]
      · simp [long, Nat.not_lt.mp long]

/-- A step can still be taken once a file stands where no directory was. -/
theorem advance_put {disk : Disk} {location place next : Location} {step : Step} {entry : Entry}
    (below : location.names ≠ []) (free : disk.get? location ≠ some .directory)
    (taken : disk.advance place step = .ok next) : (disk.put location entry).advance place step = .ok next := by
  rw [advance_eq_ok_iff] at taken ⊢
  have other : place ≠ location := by
    rintro rfl
    exact free taken.1
  rw [get?_put disk below entry place, if_neg other]
  exact taken

theorem walk_put {disk : Disk} {location : Location} {entry : Entry} (below : location.names ≠ [])
    (free : disk.get? location ≠ some .directory) {start target : Location} {steps : List Step}
    (walked : disk.walk start steps = .ok target) : (disk.put location entry).walk start steps = .ok target := by
  induction steps generalizing start with
  | nil => exact walked
  | cons step steps ih =>
    rw [walk] at walked ⊢
    cases taken : disk.advance start step with
    | error error => simp [taken] at walked
    | ok next =>
      simp only [taken] at walked
      rw [advance_put below free taken]
      exact ih walked

theorem walk_concat {disk : Disk} {start parent target : Location} {steps : List Step} {last : Step}
    (walked : disk.walk start steps = .ok parent) (taken : disk.advance parent last = .ok target) :
    disk.walk start (steps ++ [last]) = .ok target := by
  induction steps generalizing start with
  | nil =>
    cases walked
    simp [walk, taken]
  | cons step steps ih =>
    rw [List.cons_append, walk]
    rw [walk] at walked
    cases first : disk.advance start step with
    | error error => simp [first] at walked
    | ok next =>
      simp only [first] at walked ⊢
      exact ih walked

/-- A place for a file is what a name of a directory leads to, at the end of the path,
    and no directory stands there. -/
theorem placeFor_eq_ok {disk : Disk} {path : String} {location : Location}
    (placed : disk.placeFor path = .ok location) :
    refusal? path = none ∧ disk.walk (Path.start path) (Path.steps path) = .ok location ∧
      Path.namesDirectory path = false ∧ location.names ≠ [] ∧ disk.get? location ≠ some .directory := by
  unfold placeFor at placed
  split at placed
  · simp at placed
  · simp at placed
  · next last sound ends =>
    obtain ⟨front, whole⟩ := List.getLast?_eq_some_iff.mp ends
    rw [whole, List.dropLast_concat] at placed
    split at placed
    · simp at placed
    · next parent walked =>
      split at placed
      · simp at placed
      · next target name taken =>
        split at placed
        · simp at placed
        · next plain =>
          split at placed
          · simp at placed
          · next free =>
            cases placed
            refine ⟨sound, ?_, by simpa using plain, ?_, free⟩
            · rw [whole]
              exact walk_concat walked taken
            · rw [advance_eq_ok_iff] at taken
              rw [← taken.2.2]
              simp [Location.child]
      · simp at placed

/-- What has been put in place is found. -/
theorem find_of_replace {disk after : Disk} {path : String} {bytes : List UInt8}
    (replaced : disk.replace path bytes = .ok after) : after.find path = .ok (.file bytes) := by
  unfold replace at replaced
  split at replaced
  · simp at replaced
  · split at replaced
    · simp at replaced
    · next sound =>
      split at replaced
      · simp at replaced
      · next location placed =>
        obtain ⟨accepted, walked, plain, below, free⟩ := placeFor_eq_ok placed
        cases replaced
        have located : (disk.put location (.file bytes)).locate path = .ok location := by
          rw [locate, if_neg sound, accepted]
          exact walk_put below free walked
        have stands : (disk.put location (.file bytes)).get? location = some (.file bytes) := by
          rw [get?_put disk below, if_pos rfl]
        rw [find, located]
        simp only [stands, plain]
        rfl

end WordMachine.Disk
