import WordMachine.Listing

/-!
The lines of a listing. A line shows the words at its address, and the lines behind it are
the listing of the words behind those (`lines_eq_append_cons`). So the lines show all words
of an image in their order (`words_lines`), and each begins where the one before it ends
(`boundary_succ`).
-/
namespace WordMachine.Listing

/-- The lines of a listing from the front to the back. -/
theorem lines_induction {P : Nat → List Word → List Line → Prop} (nil : ∀ address, P address [] [])
    (cons : ∀ address word rest later,
      P (address + (lineAt address word rest).width) (rest.drop ((lineAt address word rest).width - 1)) later →
      P address (word :: rest) (lineAt address word rest :: later))
    (address : Nat) (words : List Word) : P address words (lines address words) := by
  have general : ∀ (n : Nat) (address : Nat) (words : List Word), words.length ≤ n →
      P address words (lines address words) := by
    intro n
    induction n with
    | zero =>
      intro address words short
      rw [List.length_eq_zero_iff.mp (Nat.le_zero.mp short), lines_nil]
      exact nil address
    | succ n ih =>
      intro address words short
      rcases words with _ | ⟨word, rest⟩
      · rw [lines_nil]
        exact nil address
      · rw [lines_cons]
        refine cons _ _ _ _ (ih _ _ ?_)
        rw [List.length_drop]
        rw [List.length_cons] at short
        omega
  exact general _ address words (Nat.le_refl _)

theorem address_lineAt (address : Nat) (word : Word) (rest : List Word) :
    (lineAt address word rest).address = address := by
  unfold lineAt
  split <;> rfl

/-- A line shows the word at its address and those behind it that are its operands. -/
theorem words_lineAt (address : Nat) (word : Word) (rest : List Word) :
    (lineAt address word rest).content.words ++ rest.drop ((lineAt address word rest).width - 1) = word :: rest := by
  unfold lineAt
  cases named : Operation.ofWord? word with
  | none => rfl
  | some op =>
    have taken : (rest.take op.arity).length = min op.arity rest.length := List.length_take
    have same : rest.drop (min op.arity rest.length) = rest.drop op.arity := by
      rcases Nat.le_total op.arity rest.length with fits | short
      · rw [Nat.min_eq_left fits]
      · rw [Nat.min_eq_right short, List.drop_length, List.drop_of_length_le short]
    rw [Operation.ofWord?_eq_some_iff] at named
    simp only [Line.width, Content.words, List.length_cons, Nat.add_sub_cancel, taken, same, List.cons_append,
      List.take_append_drop, named]

/-- The lines of an image show its words, each once and in their order. -/
theorem words_lines (address : Nat) (words : List Word) :
    (lines address words).flatMap (fun line => line.content.words) = words := by
  refine lines_induction (P := fun _ words shown => shown.flatMap (fun line => line.content.words) = words)
    ?_ ?_ address words
  · intro address
    rfl
  · intro address word rest later ih
    rw [List.flatMap_cons, ih, words_lineAt]

/-- A line stands where the words before it end, and the lines behind it are those of the
    words behind its own. -/
theorem lines_eq_append_cons {address : Nat} {words : List Word} {front later : List Line} {line : Line}
    (cut : lines address words = front ++ line :: later) :
    ∃ before word rest, words = before ++ word :: rest ∧ line = lineAt (address + before.length) word rest ∧
      later = lines (line.address + line.width) (rest.drop (line.width - 1)) := by
  induction front generalizing address words with
  | nil =>
    rcases words with _ | ⟨word, rest⟩
    · rw [lines_nil] at cut
      cases cut
    · rw [lines_cons] at cut
      obtain ⟨rfl, rfl⟩ := List.cons.inj cut
      exact ⟨[], word, rest, rfl, rfl, by rw [address_lineAt]⟩
  | cons first front ih =>
    rcases words with _ | ⟨word, rest⟩
    · rw [lines_nil] at cut
      cases cut
    · rw [lines_cons] at cut
      obtain ⟨rfl, behind_first⟩ := List.cons.inj cut
      obtain ⟨before, next, behind, split, shown, remaining⟩ := ih behind_first
      have whole := words_lineAt address word rest
      rw [split, ← List.append_assoc] at whole
      refine ⟨_, next, behind, whole.symm, ?_, remaining⟩
      rw [shown, List.length_append, Line.width, Nat.add_assoc]

theorem drop_of_getElem? {shown : List Line} {k : Nat} {line : Line} (at_k : shown[k]? = some line) :
    shown.drop k = line :: shown.drop (k + 1) := by
  rw [List.drop_eq_getElem?_toList_append, at_k]
  rfl

/-- The line with a given number shows the words at its address. -/
theorem exists_of_getElem? {address k : Nat} {words : List Word} {line : Line}
    (at_k : (lines address words)[k]? = some line) :
    ∃ before word rest, words = before ++ word :: rest ∧ line = lineAt (address + before.length) word rest ∧
      (lines address words).drop (k + 1) = lines (line.address + line.width) (rest.drop (line.width - 1)) := by
  have cut : lines address words = (lines address words).take k ++ line :: (lines address words).drop (k + 1) := by
    rw [← drop_of_getElem? at_k, List.take_append_drop]
  exact lines_eq_append_cons cut

theorem head?_lines (address : Nat) (words : List Word) :
    ((lines address words).head?.map Line.address).getD (address + words.length) = address := by
  rcases words with _ | ⟨word, rest⟩
  · rw [lines_nil]
    rfl
  · rw [lines_cons]
    exact address_lineAt address word rest

/-- Where a line of an image begins that has so many lines before it, or where the image
    ends if there is no such line. -/
def boundary (words : List Word) (k : Nat) : Nat := ((disassemble words)[k]?.map Line.address).getD words.length

theorem boundary_zero (words : List Word) : boundary words 0 = 0 := by
  have first := head?_lines 0 words
  rwa [Nat.zero_add, List.head?_eq_getElem?] at first

theorem boundary_of_getElem? {words : List Word} {k : Nat} {line : Line} (at_k : (disassemble words)[k]? = some line) :
    boundary words k = line.address := by
  rw [boundary, at_k]
  rfl

/-- A line begins where the one before it ends. -/
theorem boundary_succ {words : List Word} {k : Nat} {line : Line} (at_k : (disassemble words)[k]? = some line) :
    boundary words (k + 1) = line.address + line.width := by
  obtain ⟨before, word, rest, split, shown, remaining⟩ := exists_of_getElem? at_k
  have place : line.address = 0 + before.length := by rw [shown, address_lineAt]
  have sum : line.width + (rest.drop (line.width - 1)).length = rest.length + 1 := by
    have whole := congrArg List.length (words_lineAt (0 + before.length) word rest)
    rwa [← shown, List.length_append, List.length_cons] at whole
  have next := head?_lines (line.address + line.width) (rest.drop (line.width - 1))
  have ends : words.length = line.address + line.width + (rest.drop (line.width - 1)).length := by
    rw [split, List.length_append, List.length_cons]
    omega
  rw [← remaining, ← ends, List.head?_drop] at next
  exact next

end WordMachine.Listing
