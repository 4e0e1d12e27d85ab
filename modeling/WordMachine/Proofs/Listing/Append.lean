import WordMachine.Proofs.Listing.Partition

/-!
Listings of images that are put together. A line depends on the words behind its own only if
it is cut short, so the listing of an image goes on, behind one that ends with a whole line,
with the listing of what is added (`lines_append`). The lines in front of another line are
such a listing (`lines_front`): what comes after them does not change them, and the lines
from there on are the listing of the words from there on (`compositional`).
-/
namespace WordMachine.Listing

variable {address : Nat} {words rest : List Word} {front behind : List Line}

/-- An operation is shown without all of its operands. -/
def Content.IsCut : Content → Prop
  | instruction op operands => operands.length < op.arity
  | data _ => False

instance : DecidablePred Content.IsCut
  | .instruction op operands => inferInstanceAs (Decidable (operands.length < op.arity))
  | .data _ => inferInstanceAs (Decidable False)

/-- The line at a higher address. -/
def Line.shift (distance : Nat) (line : Line) : Line := { line with address := line.address + distance }

/-! ### Words behind an image -/

theorem width_lineAt_le (address : Nat) (word : Word) (rest : List Word) :
    (lineAt address word rest).width - 1 ≤ rest.length := by
  have length := width_add_length_drop address word rest
  omega

/-- A line that is not cut short does not depend on the words behind it. -/
theorem lineAt_append {word : Word} (uncut : ¬ (lineAt address word rest).content.IsCut) (more : List Word) :
    lineAt address word (rest ++ more) = lineAt address word rest := by
  rcases lineAt_cases address word rest with ⟨unnamed, -⟩ | ⟨op, rfl, shown⟩
  · rw [lineAt_data unnamed, lineAt_data unnamed]
  · have fits : op.arity ≤ rest.length := by
      refine Nat.le_of_not_lt fun short => uncut ?_
      rw [shown, Content.IsCut, List.length_take]
      omega
    rw [lineAt_code, lineAt_code, List.take_append_of_le_length fits]

/-- Behind whole lines the listing goes on with that of the words behind. -/
theorem lines_append {address : Nat} {words : List Word} (uncut : ∀ line ∈ lines address words, ¬ line.content.IsCut)
    (more : List Word) : lines address (words ++ more) = lines address words ++ lines (address + words.length) more := by
  revert uncut
  refine lines_induction (P := fun address words shown => (∀ line ∈ shown, ¬ line.content.IsCut) →
    lines address (words ++ more) = shown ++ lines (address + words.length) more) ?_ ?_ address words
  · intro address _
    rfl
  · intro address word rest later ih uncut
    have length := width_add_length_drop address word rest
    have whole := lineAt_append (uncut _ List.mem_cons_self) more
    rw [List.cons_append, lines_cons, whole, List.drop_append_of_le_length (width_lineAt_le address word rest),
      ih fun line member => uncut line (List.mem_cons_of_mem _ member), Nat.add_assoc, length, List.length_cons,
      List.cons_append]

theorem lineAt_shift (address distance : Nat) (word : Word) (rest : List Word) :
    lineAt (address + distance) word rest = (lineAt address word rest).shift distance := by
  unfold lineAt
  split <;> rfl

theorem lines_shift (address distance : Nat) (words : List Word) :
    lines (address + distance) words = (lines address words).map (Line.shift distance) := by
  refine lines_induction (P := fun address words shown => lines (address + distance) words = shown.map (Line.shift distance))
    ?_ ?_ address words
  · intro address
    exact lines_nil _
  · intro address word rest later ih
    have same : (lineAt (address + distance) word rest).width = (lineAt address word rest).width := by
      rw [lineAt_shift]
      rfl
    rw [lines_cons, same, Nat.add_right_comm, ih, lineAt_shift, List.map_cons]

/-- Words at an address have the listing of an image, at higher addresses. -/
theorem lines_eq_map_shift (address : Nat) (words : List Word) :
    lines address words = (disassemble words).map (Line.shift address) := by
  have shifted := lines_shift 0 address words
  rwa [Nat.zero_add] at shifted

/-! ### Lines in front of a line -/

/-- Lines that are followed by others are whole. -/
theorem Partitions.length_operands (partition : Partitions address words (front ++ behind)) (followed : behind ≠ [])
    {line : Line} {op : Operation} {operands : List Word} (member : line ∈ front)
    (content : line.content = .instruction op operands) : operands.length = op.arity := by
  have positive := List.length_pos_iff.mpr followed
  obtain ⟨k, inside, rfl⟩ := List.getElem_of_mem member
  have at_k : (front ++ behind)[k]? = some front[k] := by
    rw [List.getElem?_append_left inside, List.getElem?_eq_getElem inside]
  rcases partition.whole k _ op operands at_k content with full | ⟨-, last, -⟩
  · exact full
  · rw [List.length_append] at last
    omega

theorem Partitions.uncut (partition : Partitions address words (front ++ behind)) (followed : behind ≠ []) :
    ∀ line ∈ front, ¬ line.content.IsCut := by
  intro line member cut
  cases content : line.content with
  | data datum => rwa [content] at cut
  | instruction op operands =>
    rw [content] at cut
    exact Nat.ne_of_lt cut (partition.length_operands followed member content)

/-- Lines that are followed by others are a partition of their words. -/
theorem Partitions.of_append (partition : Partitions address words (front ++ behind)) (followed : behind ≠ []) :
    Partitions address (front.flatMap fun line => line.content.words) front where
  begins := fun line first => partition.begins line (by rw [List.head?_append, first]; rfl)
  follows := (List.isChain_append.mp partition.follows).1
  widths := by rw [List.length_flatMap]; rfl
  shows := rfl
  data := fun line member => partition.data line (List.mem_append_left behind member)
  whole := fun _ _ _ _ at_k content => .inl (partition.length_operands followed (List.mem_of_getElem? at_k) content)

/-- The lines in front of a line are the listing of the words in front of it, all of them
    whole, and the lines from there on are the listing of the words from there on. -/
theorem lines_front {line : Line} {later : List Line} (cut : lines address words = front ++ line :: later) :
    ∃ before remaining, words = before ++ remaining ∧ line.address = address + before.length ∧
      lines address before = front ∧ (∀ line ∈ front, ¬ line.content.IsCut) ∧
      lines line.address remaining = line :: later := by
  obtain ⟨before, word, rest, split, shown, remaining⟩ := lines_eq_append_cons cut
  have placed : line.address = address + before.length := by rw [shown, address_lineAt]
  have from_line : lines line.address (word :: rest) = line :: later := by
    rw [lines_cons, placed, ← shown, ← placed, ← remaining]
  have partition := partitions_lines address words
  rw [cut] at partition
  -- The words of the lines in front are the words in front.
  have all := partition.shows
  rw [List.flatMap_append, ← from_line, words_lines, split] at all
  have apart := partition.of_append (List.cons_ne_nil line later)
  rw [List.append_cancel_right all] at apart
  exact ⟨before, word :: rest, split, placed, apart.eq_lines.symm,
    partition.uncut (List.cons_ne_nil line later), from_line⟩

/-- A line divides the words of an image, and the lines, into those in front of it and those
    from there on. -/
theorem exists_split_of_getElem? {k : Nat} {line : Line} (at_k : (disassemble words)[k]? = some line) :
    ∃ before remaining, words = before ++ remaining ∧ line.address = before.length ∧
      disassemble before = (disassemble words).take k ∧ (∀ line ∈ disassemble before, ¬ line.content.IsCut) ∧
      (disassemble before).length = k ∧ lines line.address remaining = (disassemble words).drop k := by
  have inside : k < (disassemble words).length := (List.getElem?_eq_some_iff.mp at_k).1
  have behind := drop_of_getElem? at_k
  have cut : disassemble words = (disassemble words).take k ++ line :: (disassemble words).drop (k + 1) := by
    rw [← behind, List.take_append_drop]
  obtain ⟨before, remaining, split, placed, listed, uncut, from_line⟩ := lines_front cut
  rw [Nat.zero_add] at placed
  have listed : disassemble before = (disassemble words).take k := listed
  refine ⟨before, remaining, split, placed, listed, ?_, ?_, from_line.trans behind.symm⟩
  · rwa [listed]
  · rw [listed, List.length_take_of_le (Nat.le_of_lt inside)]

theorem disassemble_append {u : List Word} (uncut : ∀ line ∈ disassemble u, ¬ line.content.IsCut) (v : List Word) :
    disassemble (u ++ v) = disassemble u ++ (disassemble v).map (Line.shift u.length) := by
  rw [← lines_eq_map_shift, ← Nat.zero_add u.length]
  exact lines_append uncut v

/-- Words may change from where a line begins, or be added there, and the lines in front of it
    stay as they are. -/
theorem take_of_patched {patched : List Word} {k : Nat} {line : Line} (at_k : (disassemble words)[k]? = some line)
    (same : patched.take line.address = words.take line.address) :
    (disassemble patched).take k = (disassemble words).take k := by
  obtain ⟨before, remaining, split, placed, listed, uncut, counted, -⟩ := exists_split_of_getElem? at_k
  have kept : words.take before.length = before := by rw [split, List.take_left]
  rw [placed, kept] at same
  rw [← List.take_append_drop before.length patched, same, disassemble_append uncut, List.take_left' counted, listed]

/-- Listings are compositional where lines begin. Behind an image whose lines are whole, the
    listing goes on with that of the words behind, at addresses as much higher as the image
    is long. So no line changes when words change from where a line behind it begins, and from
    there on the listing is that of the words from there on. -/
theorem compositional :
    (∀ u v, (∀ line ∈ disassemble u, ¬ line.content.IsCut) →
      disassemble (u ++ v) = disassemble u ++ (disassemble v).map (Line.shift u.length)) ∧
    ∀ words k,
      (∀ patched, k < (disassemble words).length ∨ patched.length = words.length →
        patched.take (boundary words k) = words.take (boundary words k) →
        (disassemble patched).take k = (disassemble words).take k) ∧
      (disassemble words).drop k = (disassemble (words.drop (boundary words k))).map (Line.shift (boundary words k)) := by
  refine ⟨fun u v uncut => disassemble_append uncut v, ?_⟩
  intro words k
  cases at_k : (disassemble words)[k]? with
  | some line =>
    rw [boundary_of_getElem? at_k]
    refine ⟨fun patched _ same => take_of_patched at_k same, ?_⟩
    obtain ⟨before, remaining, split, placed, -, -, -, from_line⟩ := exists_split_of_getElem? at_k
    have behind : words.drop before.length = remaining := by rw [split, List.drop_left]
    rw [placed, behind, ← lines_eq_map_shift, ← placed, from_line]
  | none =>
    have beyond : (disassemble words).length ≤ k := List.getElem?_eq_none_iff.mp at_k
    have ends : boundary words k = words.length := by
      rw [boundary, at_k]
      rfl
    rw [ends, List.drop_length, List.drop_of_length_le beyond]
    refine ⟨?_, by rw [disassemble, lines_nil, List.map_nil]⟩
    intro patched whole same
    have length : patched.length = words.length := whole.resolve_left (Nat.not_lt.mpr beyond)
    rw [List.take_length, ← length, List.take_length] at same
    rw [same]

/-- Two instructions and data, with a third instruction behind them that is cut short; and
    another word in place of the second instruction. -/
theorem compositional_add_out :
    (∀ line ∈ disassemble [9, 32768, 4, 5, 21, 40000], ¬ line.content.IsCut) ∧
      disassemble ([9, 32768, 4, 5, 21, 40000] ++ [19]) =
        disassemble [9, 32768, 4, 5, 21, 40000] ++ [⟨6, .instruction .out []⟩] ∧
      boundary [9, 32768, 4, 5, 21, 40000] 1 = 4 ∧
      (disassemble [9, 32768, 4, 5, 20, 40000]).take 1 = (disassemble [9, 32768, 4, 5, 21, 40000]).take 1 := by
  have listing : disassemble [9, 32768, 4, 5, 21, 40000] =
      [⟨0, .instruction .add [32768, 4, 5]⟩, ⟨4, .instruction .noop []⟩, ⟨5, .data 40000⟩] := by
    cbv
  have uncut : ∀ line ∈ disassemble [9, 32768, 4, 5, 21, 40000], ¬ line.content.IsCut := by
    rw [listing]
    decide
  have added : disassemble [19] = [⟨0, .instruction .out []⟩] := by cbv
  have second : boundary [9, 32768, 4, 5, 21, 40000] 1 = 4 := by
    rw [boundary, listing]
    rfl
  refine ⟨uncut, ?_, second, ?_⟩
  · rw [compositional.1 _ _ uncut, added]
    rfl
  · exact (compositional.2 [9, 32768, 4, 5, 21, 40000] 1).1 _ (.inr rfl) (by rw [second]; rfl)

end WordMachine.Listing
