import WordMachine.Device

/-!
Lines of an input. `linesOf` cuts a list of bytes after every byte 10, and `Splits` says
which texts the lines have once their ends are taken off. A source reads the lines
one after the other (`readLine_ofBytes`) and closes after the last one; what is put
after an input that is at the end of a line does not change how it is read
(`linesOf_append`).
-/
namespace WordMachine

/-- The lines of a list of bytes, each with the byte 10 that ends it, which may be
    missing from the last one. -/
def linesOf : List UInt8 → List (List UInt8)
  | [] => []
  | b :: rest =>
    if b = 10 then [b] :: linesOf rest
    else
      match linesOf rest with
      | [] => [[b]]
      | line :: later => (b :: line) :: later

/-- The bytes are at the end of a line, or there are none. -/
def Terminated (bytes : List UInt8) : Prop := ∀ b, bytes.getLast? = some b → b = 10

instance (bytes : List UInt8) : Decidable (Terminated bytes) :=
  match last : bytes.getLast? with
  | none => isTrue fun b found => by rw [last] at found; cases found
  | some b => decidable_of_iff (b = 10) (by simp [Terminated, last])

/-- The texts of the lines of an input. A line ends with a byte 10, and one carriage
    return before it is no part of its text; the last line may also end with the input,
    and then all of it is text. -/
inductive Splits : List UInt8 → List (List UInt8) → Prop
  | nothing : Splits [] []
  | last {text : List UInt8} : text ≠ [] → 10 ∉ text → Splits text [text]
  | feed {text rest : List UInt8} {texts : List (List UInt8)} : 10 ∉ text → text.getLast? ≠ some 13 →
      Splits rest texts → Splits (text ++ 10 :: rest) (text :: texts)
  | carriageReturn {text rest : List UInt8} {texts : List (List UInt8)} : 10 ∉ text →
      Splits rest texts → Splits (text ++ 13 :: 10 :: rest) (text :: texts)

theorem linesOf_eq_nil_iff {bytes : List UInt8} : linesOf bytes = [] ↔ bytes = [] := by
  constructor
  · intro none
    rcases bytes with _ | ⟨b, rest⟩
    · rfl
    · rw [linesOf] at none
      split at none
      · cases none
      · split at none <;> cases none
  · rintro rfl
    rfl

theorem flatten_linesOf (bytes : List UInt8) : (linesOf bytes).flatten = bytes := by
  induction bytes with
  | nil => rfl
  | cons b rest ih =>
    rw [linesOf]
    split
    · simp [ih]
    · split
      · next none => simp [linesOf_eq_nil_iff.mp none]
      · next line later cut =>
        rw [cut] at ih
        simpa using ih

/-- A line up to its end, and the lines after it. -/
theorem linesOf_of_end {text : List UInt8} (unbroken : 10 ∉ text) (rest : List UInt8) :
    linesOf (text ++ 10 :: rest) = (text ++ [10]) :: linesOf rest := by
  induction text with
  | nil => rfl
  | cons b text ih =>
    have other : b ≠ 10 := by
      rintro rfl
      exact unbroken List.mem_cons_self
    rw [List.cons_append, linesOf, if_neg other, ih fun inside => unbroken (List.mem_cons_of_mem b inside)]
    rfl

/-- A last line without an end. -/
theorem linesOf_of_unbroken {text : List UInt8} (some : text ≠ []) (unbroken : 10 ∉ text) : linesOf text = [text] := by
  induction text with
  | nil => exact absurd rfl some
  | cons b text ih =>
    have other : b ≠ 10 := by
      rintro rfl
      exact unbroken List.mem_cons_self
    rw [linesOf, if_neg other]
    rcases text with _ | ⟨c, text⟩
    · rfl
    · rw [ih (List.cons_ne_nil c text) fun inside => unbroken (List.mem_cons_of_mem b inside)]

/-- The lines of an input that is at the end of a line stay what they are whatever
    comes after it. -/
theorem linesOf_append {bytes : List UInt8} (ended : Terminated bytes) (more : List UInt8) :
    linesOf (bytes ++ more) = linesOf bytes ++ linesOf more := by
  induction bytes with
  | nil => rfl
  | cons b rest ih =>
    rw [List.cons_append, linesOf, linesOf]
    by_cases breaks : b = 10
    · have after : Terminated rest := by
        intro c found
        exact ended c (by simp [List.getLast?_cons, found])
      rw [if_pos breaks, if_pos breaks, ih after]
      rfl
    · rw [if_neg breaks, if_neg breaks]
      rcases rest with _ | ⟨c, rest⟩
      · exact absurd (ended b rfl) breaks
      · rw [ih fun d found => ended d (by simpa [List.getLast?_cons] using found)]
        cases cut : linesOf (c :: rest) with
        | nil => exact absurd (linesOf_eq_nil_iff.mp cut) (List.cons_ne_nil c rest)
        | cons line later => rfl

/-- The lines after the first. -/
theorem linesOf_flatten_of_cons {bytes line : List UInt8} {later : List (List UInt8)}
    (cut : linesOf bytes = line :: later) : linesOf later.flatten = later := by
  by_cases broken : 10 ∈ bytes
  · obtain ⟨text, rest, rfl, unbroken⟩ := List.eq_append_cons_of_mem broken
    rw [linesOf_of_end unbroken] at cut
    cases cut
    rw [flatten_linesOf]
  · have some : bytes ≠ [] := by
      rintro rfl
      cases cut
    rw [linesOf_of_unbroken some broken] at cut
    cases cut
    rfl

theorem append_of_linesOf_eq {bytes line : List UInt8} {later : List (List UInt8)} (cut : linesOf bytes = line :: later) :
    line ++ later.flatten = bytes := by
  have whole := flatten_linesOf bytes
  rw [cut] at whole
  exact whole

/-! ### Texts -/

theorem chomp_of_unbroken {text : List UInt8} (unbroken : 10 ∉ text) : chomp text = text := by
  have reversed : 10 ∉ text.reverse := by simpa using unbroken
  unfold chomp
  split
  · next found => simp [found] at reversed
  · next found => simp [found] at reversed
  · rfl

theorem chomp_of_feed {text : List UInt8} (kept : text.getLast? ≠ some 13) : chomp (text ++ [10]) = text := by
  rcases text.eq_nil_or_concat with rfl | ⟨front, b, rfl⟩
  · rfl
  · have other : b ≠ 13 := by simpa using kept
    unfold chomp
    simp [other]

theorem chomp_of_carriageReturn (text : List UInt8) : chomp (text ++ [13, 10]) = text := by
  simp [chomp]

/-- The texts of the lines as they are read. -/
theorem splits_linesOf (bytes : List UInt8) : Splits bytes ((linesOf bytes).map chomp) := by
  by_cases broken : 10 ∈ bytes
  · obtain ⟨text, rest, cut, unbroken⟩ := List.eq_append_cons_of_mem broken
    have later := splits_linesOf rest
    rw [cut, linesOf_of_end unbroken, List.map_cons]
    by_cases carriage : text.getLast? = some 13
    · obtain ⟨front, rfl⟩ := List.getLast?_eq_some_iff.mp carriage
      have before : 10 ∉ front := fun inside => unbroken (List.mem_append_left [13] inside)
      have text : chomp (front ++ [13] ++ [10]) = front := by
        rw [List.append_assoc]
        exact chomp_of_carriageReturn front
      rw [text, List.append_assoc]
      exact .carriageReturn before later
    · rw [chomp_of_feed carriage]
      exact .feed unbroken carriage later
  · rcases bytes with _ | ⟨b, text⟩
    · exact .nothing
    · have some : b :: text ≠ [] := List.cons_ne_nil b text
      rw [linesOf_of_unbroken some broken, List.map_singleton, chomp_of_unbroken broken]
      exact .last some broken
termination_by bytes.length
decreasing_by
  rw [cut, List.length_append, List.length_cons]
  omega

/-! ### Reading -/

namespace Source

/-- A source with more bytes to come after those that it has. -/
def feed (source : Source) (more : List UInt8) : Source := ⟨source.signals ++ more.map .byte⟩

theorem ofBytes_append (bytes more : List UInt8) : ofBytes (bytes ++ more) = (ofBytes bytes).feed more := by
  simp [ofBytes, feed]

private theorem lineAfter_ofBytes (taken bytes : List UInt8) :
    lineAfter taken (ofBytes bytes).signals
      = match linesOf bytes with
        | [] => (if taken.isEmpty then .closed else .line taken.reverse, [])
        | line :: later => (.line (taken.reverse ++ line), (ofBytes later.flatten).signals) := by
  induction bytes generalizing taken with
  | nil => rfl
  | cons b rest ih =>
    have step := ih (b :: taken)
    simp only [ofBytes, List.map_cons] at step ⊢
    rw [lineAfter, linesOf]
    by_cases breaks : b = 10
    · rw [if_pos breaks, if_pos breaks]
      simp [flatten_linesOf]
    · rw [if_neg breaks, if_neg breaks, step]
      cases linesOf rest with
      | nil => simp
      | cons line later => simp

/-- A source reads the first of its lines, and closes if it has none. -/
theorem readLine_ofBytes (bytes : List UInt8) :
    (ofBytes bytes).readLine
      = match linesOf bytes with
        | [] => (.closed, ofBytes [])
        | line :: later => (.line line, ofBytes later.flatten) := by
  rw [readLine, lineAfter_ofBytes]
  cases linesOf bytes with
  | nil => rfl
  | cons line later => rfl

/-- The line that is read has the first of the texts, and the others are still there. -/
theorem readLine_of_splits_cons {bytes text : List UInt8} {texts : List (List UInt8)}
    (split : Splits bytes (text :: texts)) :
    ∃ line rest, (ofBytes bytes).readLine = (.line line, ofBytes rest) ∧ chomp line = text ∧ Splits rest texts := by
  rw [readLine_ofBytes]
  cases split with
  | last some unbroken =>
    rw [linesOf_of_unbroken some unbroken]
    exact ⟨bytes, [], rfl, chomp_of_unbroken unbroken, .nothing⟩
  | @feed _ rest _ unbroken kept later =>
    rw [linesOf_of_end unbroken]
    refine ⟨text ++ [10], rest, ?_, chomp_of_feed kept, later⟩
    simp only [flatten_linesOf]
  | @carriageReturn _ rest _ unbroken later =>
    have before : 10 ∉ text ++ [13] := by simpa using unbroken
    have cut := linesOf_of_end before rest
    rw [List.append_assoc, List.singleton_append, List.append_assoc] at cut
    rw [cut]
    refine ⟨text ++ [13, 10], rest, ?_, chomp_of_carriageReturn text, later⟩
    simp only [flatten_linesOf, List.singleton_append]

end Source

end WordMachine
