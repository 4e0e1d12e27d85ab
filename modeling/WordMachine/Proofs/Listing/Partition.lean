import Mathlib.Algebra.GroupWithZero.Nat
import Mathlib.Data.List.Chain
import WordMachine.Proofs.Listing.Lines

/-!
Listings as partitions. The lines of an image show its words without a gap or an overlap,
each with all its operands but for the last, which may be cut short by the end of the image
(`Partitions`). No other lines do, so the listing is the only partition of an image
(`partitions_disassemble`).
-/
namespace WordMachine.Listing

variable {address : Nat} {words rest : List Word} {shown front behind : List Line}

/-- The lines are a partition of words that stand at an address. -/
structure Partitions (address : Nat) (words : List Word) (shown : List Line) : Prop where
  begins : ∀ line ∈ shown.head?, line.address = address
  /-- Each line begins where the one before it ends. -/
  follows : shown.IsChain fun line next => next.address = line.address + line.width
  widths : (shown.map Line.width).sum = words.length
  shows : shown.flatMap (fun line => line.content.words) = words
  /-- A line is a data line if its first word names no operation. -/
  data : ∀ line ∈ shown, ∃ word, line.content.words.head? = some word ∧
    ((∃ datum, line.content = .data datum) ↔ 22 ≤ word.toNat)
  /-- Only the last line may lack operands, and then it ends with the words. -/
  whole : ∀ k line op operands, shown[k]? = some line → line.content = .instruction op operands →
    operands.length = op.arity ∨
      operands.length < op.arity ∧ k + 1 = shown.length ∧ line.address + line.width = address + words.length

/-! ### A line at the front of words -/

theorem lineAt_data {word : Word} (unnamed : 22 ≤ word.toNat) : lineAt address word rest = ⟨address, .data word⟩ := by
  rw [lineAt, Operation.ofWord?_eq_none_iff.mpr unnamed]

theorem lineAt_code (op : Operation) : lineAt address op.code rest = ⟨address, .instruction op (rest.take op.arity)⟩ := by
  rw [lineAt, Operation.ofWord?_code]

/-- A line shows data, or an operation with those of its operands that are there. -/
theorem lineAt_cases (address : Nat) (word : Word) (rest : List Word) :
    22 ≤ word.toNat ∧ lineAt address word rest = ⟨address, .data word⟩ ∨
      ∃ op, word = op.code ∧ lineAt address word rest = ⟨address, .instruction op (rest.take op.arity)⟩ := by
  cases named : Operation.ofWord? word with
  | none =>
    have unnamed := Operation.ofWord?_eq_none_iff.mp named
    exact .inl ⟨unnamed, lineAt_data unnamed⟩
  | some op =>
    obtain rfl := Operation.ofWord?_eq_some_iff.mp named
    exact .inr ⟨op, rfl, lineAt_code op⟩

theorem toNat_code_lt (op : Operation) : op.code.toNat < 22 := by
  cases op <;> decide

theorem width_add_length_drop (address : Nat) (word : Word) (rest : List Word) :
    (lineAt address word rest).width + (rest.drop ((lineAt address word rest).width - 1)).length = rest.length + 1 := by
  have whole := congrArg List.length (words_lineAt address word rest)
  rwa [List.length_append, List.length_cons] at whole

/-- The first word of a line says whether it is data. -/
theorem head?_lineAt (address : Nat) (word : Word) (rest : List Word) :
    ∃ first, (lineAt address word rest).content.words.head? = some first ∧
      ((∃ datum, (lineAt address word rest).content = .data datum) ↔ 22 ≤ first.toNat) := by
  rcases lineAt_cases address word rest with ⟨unnamed, shown⟩ | ⟨op, rfl, shown⟩
  · rw [shown]
    exact ⟨word, rfl, fun _ => unnamed, fun _ => ⟨word, rfl⟩⟩
  · rw [shown]
    exact ⟨op.code, rfl, nofun, fun unnamed => absurd (toNat_code_lt op) (Nat.not_lt.mpr unnamed)⟩

/-- Operands are missing only where no words are left. -/
theorem operands_lineAt {word : Word} {op : Operation} {operands : List Word}
    (content : (lineAt address word rest).content = .instruction op operands) :
    operands.length = op.arity ∨
      operands.length < op.arity ∧ rest.drop ((lineAt address word rest).width - 1) = [] := by
  rcases lineAt_cases address word rest with ⟨-, shown⟩ | ⟨_, -, shown⟩
  · rw [shown] at content
    cases content
  · rw [shown] at content ⊢
    cases content
    by_cases fits : op.arity ≤ rest.length
    · exact .inl (List.length_take_of_le fits)
    · have taken : rest.take op.arity = rest := List.take_of_length_le (by omega)
      exact .inr ⟨by rw [taken]; omega, by simp [Line.width, Content.words, taken]⟩

/-! ### The lines of an image -/

theorem Partitions.eq_nil (partition : Partitions address [] shown) : shown = [] := by
  refine List.eq_nil_iff_forall_not_mem.mpr fun line member => ?_
  have empty := List.flatMap_eq_nil_iff.mp partition.shows line member
  rcases line with ⟨_, _ | _⟩ <;> cases empty

theorem partitions_lines (address : Nat) (words : List Word) : Partitions address words (lines address words) := by
  refine lines_induction ?_ ?_ address words
  · intro address
    exact ⟨nofun, .nil, List.sum_nil, rfl, nofun, by rintro k line op operands ⟨⟩⟩
  · intro address word rest later ih
    have placed := address_lineAt address word rest
    have length := width_add_length_drop address word rest
    refine {
      begins := ?_
      follows := ?_
      widths := ?_
      shows := ?_
      data := List.forall_mem_cons.mpr ⟨head?_lineAt address word rest, ih.data⟩
      whole := ?_ }
    · rintro line ⟨⟩
      exact placed
    · refine List.isChain_cons.mpr ⟨fun next first => ?_, ih.follows⟩
      rw [ih.begins next first, placed]
    · rw [List.map_cons, List.sum_cons, ih.widths, length, List.length_cons]
    · rw [List.flatMap_cons, ih.shows, words_lineAt]
    · rintro (_ | k) line op operands at_k content
      · cases at_k
        rcases operands_lineAt content with full | ⟨short, none⟩
        · exact .inl full
        · rw [none] at ih
          rw [none, List.length_nil, Nat.add_zero] at length
          rw [ih.eq_nil, placed, length, List.length_cons]
          exact .inr ⟨short, rfl, rfl⟩
      · rcases ih.whole k line op operands at_k content with full | ⟨short, last, ends⟩
        · exact .inl full
        · rw [List.length_cons, List.length_cons]
          exact .inr ⟨short, by omega, by omega⟩

/-- A partition that has a line at its front is that of the words behind it. -/
theorem Partitions.tail {line : Line} (partition : Partitions address words (line :: shown)) :
    Partitions (address + line.width) (shown.flatMap fun line => line.content.words) shown := by
  have placed : line.address = address := partition.begins line rfl
  have length := congrArg List.length partition.shows
  have widths := partition.widths
  obtain ⟨next, follows⟩ := List.isChain_cons.mp partition.follows
  rw [List.flatMap_cons, List.length_append, ← Line.width] at length
  rw [List.map_cons, List.sum_cons] at widths
  refine ⟨?_, follows, by omega, rfl, fun other member => partition.data other (List.mem_cons_of_mem line member), ?_⟩
  · intro other first
    rw [next other first, placed]
  · intro k other op operands at_k content
    rcases partition.whole (k + 1) other op operands at_k content with full | ⟨short, last, ends⟩
    · exact .inl full
    · rw [List.length_cons] at last
      exact .inr ⟨short, by omega, by omega⟩

/-- A partition has the line at its front that the words at the front have. -/
theorem Partitions.exists_lineAt {line : Line} (partition : Partitions address words (line :: shown)) :
    ∃ word rest, words = word :: rest ∧ line = lineAt address word rest := by
  obtain rfl : line.address = address := partition.begins line rfl
  have split := partition.shows
  obtain ⟨first, at_first, unnamed⟩ := partition.data line List.mem_cons_self
  rw [List.flatMap_cons] at split
  obtain ⟨address, content⟩ := line
  cases content with
  | instruction op operands =>
    refine ⟨op.code, operands ++ shown.flatMap fun line => line.content.words, split.symm, ?_⟩
    rw [lineAt_code]
    rcases partition.whole 0 _ op operands rfl rfl with full | ⟨short, last, -⟩
    · rw [List.take_left' full]
    · obtain rfl : shown = [] := List.length_eq_zero_iff.mp (Nat.succ.inj last).symm
      rw [List.flatMap_nil, List.append_nil, List.take_of_length_le (Nat.le_of_lt short)]
  | data datum =>
    rw [← Option.some.inj at_first] at unnamed
    exact ⟨datum, _, split.symm, (lineAt_data (unnamed.mp ⟨datum, rfl⟩)).symm⟩

/-- The listing is the only partition of an image. -/
theorem Partitions.eq_lines (partition : Partitions address words shown) : shown = lines address words := by
  induction shown generalizing address words with
  | nil => rw [← partition.shows, List.flatMap_nil, lines_nil]
  | cons line shown ih =>
    obtain ⟨word, rest, rfl, rfl⟩ := partition.exists_lineAt
    have behind : shown.flatMap (fun line => line.content.words) = rest.drop ((lineAt address word rest).width - 1) := by
      refine List.append_cancel_left ((?_ : (lineAt address word rest).content.words ++ _ = _))
      rw [words_lineAt, ← partition.shows, List.flatMap_cons]
    rw [lines_cons, ← behind, ← ih partition.tail]

/-- The lines of a listing are a partition of the image: they begin at zero and follow one
    another without a gap, they show all words of the image, each line shows data or an
    operation as its first word says, and each operation has all its operands but for the
    last line, which may end with the image before it has. No other lines are a partition. -/
theorem partitions_disassemble (words : List Word) :
    Partitions 0 words (disassemble words) ∧ ∀ shown, Partitions 0 words shown → shown = disassemble words :=
  ⟨partitions_lines 0 words, fun _ partition => partition.eq_lines⟩

example : disassemble [9, 32768, 4, 5, 22, 19] =
    [⟨0, .instruction .add [32768, 4, 5]⟩, ⟨4, .data 22⟩, ⟨5, .instruction .out []⟩] := by
  cbv

end WordMachine.Listing
