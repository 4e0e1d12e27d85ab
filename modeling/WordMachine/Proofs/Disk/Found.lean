import WordMachine.Proofs.Disk.Directories

/-!
Files that are found. A path that leads somewhere goes through the directory in which its
last step is taken (`directory_of_walk`). So whether a file can be put in place of one that
is found, and why not, is told by the path alone, whatever else is on the disk
(`replace_of_find`).
-/
namespace WordMachine

namespace Path

theorem pieces_eq_splitOn (text : List Char) : pieces text = text.splitOn '/' := by
  induction text with
  | nil => rfl
  | cons c text ih =>
    obtain ⟨piece, more, cut⟩ := List.exists_cons_of_ne_nil (List.splitOn_ne_nil '/' text)
    rw [pieces, List.foldr_cons, ← pieces, ih, List.splitOn_cons_eq_if_modifyHead, cut]
    by_cases slash : c = '/'
    · subst slash
      rfl
    · simp [slash]

theorem slash_notMem_of_mem_pieces {text piece : List Char} (member : piece ∈ pieces text) : '/' ∉ piece := by
  rw [pieces_eq_splitOn] at member
  induction text generalizing piece with
  | nil =>
    rw [List.splitOn_nil, List.mem_singleton] at member
    simp [member]
  | cons c text ih =>
    obtain ⟨first, more, cut⟩ := List.exists_cons_of_ne_nil (List.splitOn_ne_nil '/' text)
    rw [List.splitOn_cons_eq_if_modifyHead, cut] at member
    rw [cut] at ih
    split at member
    · rcases List.mem_cons.mp member with rfl | member
      · simp
      · exact ih member
    · next slash =>
      rcases List.mem_cons.mp member with rfl | member
      · rw [List.mem_cons, not_or]
        exact ⟨fun same => slash (by simp [← same]), ih List.mem_cons_self⟩
      · exact ih (List.mem_cons_of_mem first member)

/-- Pieces that are put together with slashes are the pieces of what they come to. -/
theorem pieces_intercalate {front rest : List (List Char)} {text : List Char} (cut : pieces text = front ++ rest)
    (nonempty : front ≠ []) : pieces ("/".intercalate (front.map String.ofList)).toList = front := by
  have unbroken : ∀ piece ∈ front, '/' ∉ piece := by
    intro piece member
    have among : piece ∈ pieces text := by
      rw [cut]
      exact List.mem_append_left rest member
    exact slash_notMem_of_mem_pieces among
  have texts : (front.map String.ofList).map String.toList = front := by
    simp
  rw [String.toList_intercalate, texts, pieces_eq_splitOn]
  exact List.splitOn_intercalate '/' unbroken nonempty

theorem exists_cons_of_dropWhile {α : Type} {idle : α → Bool} {items : List α} (nonempty : items.dropWhile idle ≠ []) :
    ∃ item later, items.dropWhile idle = item :: later ∧ idle item = false := by
  obtain ⟨item, later, cut⟩ := List.exists_cons_of_ne_nil nonempty
  refine ⟨item, later, cut, ?_⟩
  simpa [cut] using List.head_dropWhile_not idle nonempty

/-- What is left of a list without its last busy item and the idle items around it. -/
theorem exists_of_dropWhile {α : Type} {idle : α → Bool} {items front : List α}
    (left : front = (((items.reverse.dropWhile idle).drop 1).dropWhile idle).reverse) (nonempty : front ≠ []) :
    ∃ rest, items = front ++ rest ∧ (∃ item ∈ rest, idle item = false) ∧ ∃ item ∈ front, idle item = false := by
  have something : items.reverse.dropWhile idle ≠ [] := by
    intro empty
    rw [empty] at left
    exact nonempty left
  obtain ⟨last, before, cut, busy⟩ := exists_cons_of_dropWhile something
  rw [cut, List.drop_one, List.tail_cons] at left
  have remains : before.dropWhile idle ≠ [] := by
    intro empty
    rw [empty] at left
    exact nonempty left
  obtain ⟨piece, others, first, alsoBusy⟩ := exists_cons_of_dropWhile remains
  refine ⟨(before.takeWhile idle).reverse ++ last :: (items.reverse.takeWhile idle).reverse, ?_,
    ⟨last, by simp, busy⟩, piece, by simp [left, first], alsoBusy⟩
  calc items = (items.reverse.takeWhile idle ++ items.reverse.dropWhile idle).reverse := by
        rw [List.takeWhile_append_dropWhile, List.reverse_reverse]
    _ = (last :: (before.takeWhile idle ++ before.dropWhile idle)).reverse
          ++ (items.reverse.takeWhile idle).reverse := by
        rw [cut, List.reverse_append, List.takeWhile_append_dropWhile]
    _ = front ++ ((before.takeWhile idle).reverse ++ last :: (items.reverse.takeWhile idle).reverse) := by
        simp only [left, List.reverse_cons, List.reverse_append, List.append_assoc, List.cons_append, List.nil_append]

/-- The path of the directory is a fixed one if nothing stands before the last step. Otherwise
    its pieces are the first ones of the path, and they are not all empty. -/
theorem directory_cases (path : String) :
    directory path = (if isAbsolute path then "/" else ".") ∨
    ∃ front rest, pieces path.toList = front ++ rest ∧ pieces (directory path).toList = front ∧
      (∃ piece ∈ rest, piece ≠ []) ∧ ∃ piece ∈ front, piece ≠ [] := by
  let idle (piece : List Char) : Bool := piece = [] || piece = ['.']
  obtain ⟨front, left⟩ : ∃ front,
      front = ((((pieces path.toList).reverse.dropWhile idle).drop 1).dropWhile idle).reverse := ⟨_, rfl⟩
  have whole : directory path = if front = [] then (if isAbsolute path then "/" else ".")
      else "/".intercalate (front.map String.ofList) := by
    rw [left]
    rfl
  by_cases empty : front = []
  · exact .inl (whole.trans (if_pos empty))
  · obtain ⟨rest, cut, ⟨last, member, busy⟩, piece, alsoMember, alsoBusy⟩ := exists_of_dropWhile left empty
    have solid : ∀ {piece}, idle piece = false → piece ≠ [] := by
      rintro _ busy rfl
      cases busy
    refine .inr ⟨front, rest, cut, ?_, ⟨last, member, solid busy⟩, piece, alsoMember, solid alsoBusy⟩
    rw [whole, if_neg empty]
    exact pieces_intercalate cut empty

theorem isAbsolute_iff {path : String} :
    isAbsolute path = true ↔ ∃ piece more, pieces path.toList = [] :: piece :: more := by
  unfold isAbsolute
  cases path.toList with
  | nil => simp [pieces]
  | cons c text =>
    obtain ⟨piece, more, cut⟩ := List.exists_cons_of_ne_nil (List.splitOn_ne_nil '/' text)
    rw [pieces_eq_splitOn, List.splitOn_cons_eq_if_modifyHead, cut]
    by_cases slash : c = '/'
    · simp [slash]
    · simp [slash]

/-- The directory of a path starts where the path does. -/
theorem start_directory (path : String) : start (directory path) = start path := by
  obtain fixed | ⟨front, rest, cut, pieces, -, piece, member, solid⟩ := directory_cases path
  · rw [fixed, start, start]
    cases isAbsolute path <;> rfl
  · have same : isAbsolute (directory path) = true ↔ isAbsolute path = true := by
      rw [isAbsolute_iff, isAbsolute_iff, pieces, cut]
      constructor
      · rintro ⟨second, more, rfl⟩
        exact ⟨second, more ++ rest, rfl⟩
      · rintro ⟨second, more, begins⟩
        -- The empty piece before the first slash is not all that is left, as not all are empty.
        rcases front with _ | ⟨first, _ | ⟨third, others⟩⟩
        · cases member
        · rw [List.mem_singleton] at member
          cases begins
          exact absurd member solid
        · cases begins
          exact ⟨second, others, rfl⟩
    rw [start, start]
    simp only [same]

/-- The steps of the directory are those of the path up to its last one, if there are any
    that lead away from the start. -/
theorem steps_directory (path : String) :
    (∀ step ∈ steps (directory path), step = .here) ∨ ∃ step rest, steps path = steps (directory path) ++ step :: rest := by
  obtain fixed | ⟨front, rest, cut, pieces, ⟨piece, member, solid⟩, -⟩ := directory_cases path
  · left
    rw [fixed]
    cases isAbsolute path with
    | true => decide
    | false => decide
  · right
    have more : rest.filter (· ≠ []) ≠ [] := List.ne_nil_of_mem (List.mem_filter.mpr ⟨member, by simpa using solid⟩)
    obtain ⟨first, others, remains⟩ := List.exists_cons_of_ne_nil more
    simp only [steps, pieces, cut, List.filter_append, List.map_append, remains, List.map_cons]
    exact ⟨_, _, rfl⟩

end Path

namespace Disk

variable {disk : Disk}

theorem walk_append_eq_ok_iff {start target : Location} {front rest : List Step} :
    disk.walk start (front ++ rest) = .ok target ↔
      ∃ place, disk.walk start front = .ok place ∧ disk.walk place rest = .ok target := by
  induction front generalizing start with
  | nil => simp [walk]
  | cons step front ih =>
    rw [List.cons_append, walk, walk]
    cases disk.advance start step with
    | error error => simp
    | ok next => exact ih

/-- Steps that stay where they are can be taken from a directory. -/
theorem walk_of_idle {place : Location} {steps : List Step} (stands : disk.get? place = some .directory)
    (idle : ∀ step ∈ steps, step = .here) : disk.walk place steps = .ok place := by
  induction steps with
  | nil => rfl
  | cons step steps ih =>
    obtain rfl := idle step List.mem_cons_self
    have taken : disk.advance place .here = .ok place := advance_eq_ok_iff.mpr ⟨stands, rfl⟩
    rw [walk, taken]
    exact ih fun other member => idle other (List.mem_cons_of_mem _ member)

/-- Where a path starts there is always a directory. -/
theorem get?_start (disk : Disk) (path : String) : disk.get? (Path.start path) = some .directory := by
  rw [Path.start]
  cases Path.isAbsolute path <;> rfl

/-- A path that leads somewhere goes through its directory. -/
theorem directory_of_walk {path : String} {target : Location}
    (walked : disk.walk (Path.start path) (Path.steps path) = .ok target) :
    ∃ directory, disk.walk (Path.start (Path.directory path)) (Path.steps (Path.directory path)) = .ok directory ∧
      disk.get? directory = some .directory := by
  rw [Path.start_directory]
  obtain idle | ⟨step, rest, whole⟩ := Path.steps_directory path
  · exact ⟨_, walk_of_idle (get?_start disk path) idle, get?_start disk path⟩
  · rw [whole] at walked
    obtain ⟨directory, comes, onward⟩ := walk_append_eq_ok_iff.mp walked
    refine ⟨directory, comes, ?_⟩
    rw [walk] at onward
    cases taken : disk.advance directory step with
    | error error => simp [taken] at onward
    | ok next => exact (advance_eq_ok_iff.mp taken).1

/-- Why no file can be put in place of one that a path finds. -/
def refusalInPlace? (path : String) : Option DiskError :=
  if Path.hasNull (Path.directory path) then some .nullInName
  else if Path.longest < Path.stagedBytes (Path.directory path) then some .nameTooLong
  else
    match (Path.steps path).getLast? with
    | some (.name _) => none
    | _ => some .busy

theorem find_eq_ok_file {path : String} {bytes : List UInt8} (found : disk.find path = .ok (.file bytes)) :
    Path.hasNull path = false ∧ refusal? path = none ∧ Path.namesDirectory path = false ∧
      ∃ place, disk.walk (Path.start path) (Path.steps path) = .ok place ∧ disk.get? place = some (.file bytes) := by
  unfold find locate at found
  split at found
  · cases found
  · next place comes =>
    split at comes
    · cases comes
    · next whole =>
      split at comes
      · cases comes
      · next sound =>
        split at found
        · cases found
        · next held stands =>
          split at found
          · cases found
          · next plain =>
            cases found
            exact ⟨by simpa using whole, sound, by simpa using plain, place, comes, stands⟩
        · cases found

theorem placeFor_of_walk {path : String} {place : Location} {bytes : List UInt8} (sound : refusal? path = none)
    (plain : Path.namesDirectory path = false)
    (walked : disk.walk (Path.start path) (Path.steps path) = .ok place)
    (stands : disk.get? place = some (.file bytes)) :
    disk.placeFor path = match (Path.steps path).getLast? with
      | some (.name _) => .ok place
      | _ => .error .busy := by
  unfold placeFor
  rw [sound]
  cases ends : (Path.steps path).getLast? with
  | none => rfl
  | some last =>
    obtain ⟨front, whole⟩ := List.getLast?_eq_some_iff.mp ends
    rw [whole] at walked
    obtain ⟨parent, comes, onward⟩ := walk_append_eq_ok_iff.mp walked
    have taken : disk.advance parent last = .ok place := by
      rw [walk] at onward
      cases taken : disk.advance parent last with
      | error error => simp [taken] at onward
      | ok next =>
        rw [taken] at onward
        exact onward
    rw [whole, List.dropLast_concat]
    simp only [comes, taken]
    cases last with
    | here | up => rfl
    | name name => simp [plain, stands]

/-- Whether a file can be put in place of one that a path finds, and why not, is told by
    the path alone. -/
theorem replace_of_find {path : String} {bytes new : List UInt8} {error : DiskError}
    (found : disk.find path = .ok (.file bytes)) :
    disk.replace path new = .error error ↔ refusalInPlace? path = some error := by
  obtain ⟨whole, sound, plain, place, walked, stands⟩ := find_eq_ok_file found
  obtain ⟨directory, comes, isDirectory⟩ := directory_of_walk walked
  have prepared : disk.directoryFor path = if Path.hasNull (Path.directory path) then .error .nullInName
      else if Path.longest < Path.stagedBytes (Path.directory path) then .error .nameTooLong
      else .ok directory := by
    simp only [directoryFor, comes, isDirectory]
  rw [replace, prepared, whole, placeFor_of_walk sound plain walked stands, refusalInPlace?]
  by_cases null : Path.hasNull (Path.directory path) = true
  · simp only [if_pos null, Except.error.injEq, Option.some.injEq]
  · by_cases long : Path.longest < Path.stagedBytes (Path.directory path)
    · simp only [if_neg null, if_pos long, Except.error.injEq, Option.some.injEq]
    · simp only [if_neg null, if_neg long]
      rcases (Path.steps path).getLast? with _ | _ | _ | name <;> simp

end Disk

end WordMachine
