import WordMachine.Proofs.Listing.Lines
import WordMachine.Proofs.Text.Numeral
import WordMachine.Proofs.Text.Utf8

/-!
Listings read back. A reader of listings splits the text into lines and each line into
fields, drops the address, and finds the word of the operation by its mnemonic, or the word
of a data line, and the words of the operands by their digits (`words?`). From the listing
of an image it reads the image, so no two images have the same listing (`lossless`).
-/
namespace WordMachine.Listing

/-- The word that a text writes in decimal. -/
def wordOfDigits? (text : List Char) : Option Word :=
  match Numeral.parse64 text with
  | .ok n => if n < 65536 then some (UInt16.ofNat n) else none
  | .error _ => none

/-- The operation that has a mnemonic. -/
def operationOfMnemonic? (mnemonic : List Char) : Option Operation :=
  Operation.table.find? fun op => op.mnemonic.toList = mnemonic

/-- The words that the fields of a line after its address show. -/
def wordsOfFields? : List (List Char) → Option (List Word)
  | [] => none
  | [['>', '>'], digits] => (wordOfDigits? digits).map ([·])
  | mnemonic :: operands =>
    match operationOfMnemonic? mnemonic, operands.mapM wordOfDigits? with
    | some op, some words => some (op.code :: words)
    | _, _ => none

/-- The words that a line shows. The padding of the address and the address are dropped. -/
def wordsOfLine? (line : List Char) : Option (List Word) :=
  wordsOfFields? ((line.dropWhile (· = ' ')).splitOn ' ').tail

/-- The words that a listing shows. -/
def words? (listing : List UInt8) : Option (List Word) :=
  match Utf8.decode? listing with
  | some text => ((text.splitOn '\n').dropLast.mapM wordsOfLine?).map List.flatten
  | none => none

/-! ### Fields -/

theorem wordOfDigits?_digits (w : Word) : wordOfDigits? (Numeral.digits w.toNat) = some w := by
  have small : w.toNat < 65536 := w.toNat_lt
  have read : Numeral.parse64 (Numeral.digits w.toNat) = .ok w.toNat :=
    Numeral.parse64_digits (Nat.lt_trans small (by decide))
  simp only [wordOfDigits?, read, if_pos small, UInt16.ofNat_toNat]

theorem mapM_wordOfDigits? (words : List Word) :
    (words.map fun w => Numeral.digits w.toNat).mapM wordOfDigits? = some words := by
  induction words with
  | nil => rfl
  | cons w words ih =>
    rw [List.map_cons, List.mapM_cons, wordOfDigits?_digits, ih]
    rfl

theorem operationOfMnemonic?_mnemonic (op : Operation) : operationOfMnemonic? op.mnemonic.toList = some op := by
  cases op <;> decide

/-- No mnemonic looks like the mark of a data line. -/
theorem mnemonic_ne_mark (op : Operation) : op.mnemonic.toList ≠ ['>', '>'] := by
  cases op <;> decide

theorem wordsOfFields?_fields (content : Content) : wordsOfFields? content.fields = some content.words := by
  cases content with
  | data word =>
    rw [Content.fields, wordsOfFields?, wordOfDigits?_digits]
    rfl
  | instruction op operands =>
    rw [Content.fields, wordsOfFields?, operationOfMnemonic?_mnemonic, mapM_wordOfDigits?]
    · rfl
    · intro digits marked _
      exact absurd marked (mnemonic_ne_mark op)

/-! ### Lines -/

/-- The characters that divide a listing do not occur in the fields of a line. -/
theorem notMem_fields {c : Char} (divides : c = ' ' ∨ c = '\n') (content : Content) :
    ∀ field ∈ content.fields, c ∉ field := by
  have digits (n : Nat) : c ∉ Numeral.digits n := by
    refine Numeral.notMem_digits ?_ n
    rcases divides with rfl | rfl <;> rfl
  have mnemonic (op : Operation) : c ∉ op.mnemonic.toList := by
    rcases divides with rfl | rfl <;> cases op <;> decide
  have mark : c ∉ ['>', '>'] := by
    rcases divides with rfl | rfl <;> decide
  cases content with
  | data word =>
    intro field member
    rw [Content.fields, List.mem_cons, List.mem_singleton] at member
    rcases member with rfl | rfl
    · exact mark
    · exact digits word.toNat
  | instruction op operands =>
    intro field member
    rcases List.mem_cons.mp member with rfl | member
    · exact mnemonic op
    · obtain ⟨w, -, rfl⟩ := List.mem_map.mp member
      exact digits w.toNat

theorem fields_ne_nil (content : Content) : content.fields ≠ [] := by
  cases content <;> nofun

/-- Without the padding of its address, a line is its fields with a space between any two. -/
theorem dropWhile_text (line : Line) : line.text.dropWhile (· = ' ')
    = [' '].intercalate ((Numeral.digits line.address ++ [':']) :: line.content.fields) := by
  obtain ⟨c, more, spelled⟩ := List.exists_cons_of_ne_nil (Numeral.digits_ne_nil line.address)
  have solid : c ≠ ' ' := by
    rintro rfl
    exact Numeral.notMem_digits (c := ' ') rfl line.address (by simp [spelled])
  have padding : ∀ p ∈ List.replicate (5 - (Numeral.digits line.address).length) ' ', decide (p = ' ') = true := by
    intro p member
    rw [List.eq_of_mem_replicate member]
    rfl
  rw [Line.text, Line.column, List.append_assoc, List.append_assoc, List.dropWhile_append_of_pos padding,
    List.intercalate_cons_of_ne_nil (fields_ne_nil line.content), spelled, List.cons_append,
    List.dropWhile_cons_of_neg (by simpa using solid)]
  simp

theorem wordsOfLine?_text (line : Line) : wordsOfLine? line.text = some line.content.words := by
  have undivided : ∀ field ∈ (Numeral.digits line.address ++ [':']) :: line.content.fields, ' ' ∉ field := by
    intro field member
    rcases List.mem_cons.mp member with rfl | member
    · rw [List.mem_append, not_or]
      exact ⟨Numeral.notMem_digits rfl line.address, by decide⟩
    · exact notMem_fields (.inl rfl) line.content field member
  rw [wordsOfLine?, dropWhile_text, List.splitOn_intercalate ' ' undivided nofun, List.tail_cons,
    wordsOfFields?_fields]

theorem notMem_intercalate {c : Char} {separator : List Char} {pieces : List (List Char)} (between : c ∉ separator)
    (within : ∀ piece ∈ pieces, c ∉ piece) : c ∉ separator.intercalate pieces := by
  induction pieces with
  | nil => nofun
  | cons piece pieces ih =>
    have later := ih fun other member => within other (List.mem_cons_of_mem piece member)
    have first := within piece List.mem_cons_self
    by_cases last : pieces = []
    · rw [last, List.intercalate_singleton]
      exact first
    · rw [List.intercalate_cons_of_ne_nil last, List.mem_append, List.mem_append, not_or, not_or]
      exact ⟨⟨first, between⟩, later⟩

theorem newline_notMem_text (line : Line) : '\n' ∉ line.text := by
  have address : '\n' ∉ Line.column line.address := by
    rw [Line.column, List.mem_append, not_or]
    exact ⟨fun member => absurd (List.eq_of_mem_replicate member) (by decide), Numeral.notMem_digits rfl line.address⟩
  have fields : '\n' ∉ [' '].intercalate line.content.fields :=
    notMem_intercalate (by decide) (notMem_fields (.inr rfl) line.content)
  rw [Line.text, List.mem_append, List.mem_append, not_or, not_or]
  exact ⟨⟨address, by decide⟩, fields⟩

/-! ### Listings -/

/-- The text of a listing, each line with its end. -/
theorem bytes_eq (words : List Word) : bytes words
    = Utf8.encode (['\n'].intercalate ((disassemble words).map Line.text ++ [[]])) := by
  rw [bytes]
  induction disassemble words with
  | nil => rfl
  | cons line later ih =>
    rw [List.flatMap_cons, ih, List.map_cons, List.cons_append, List.intercalate_cons_of_ne_nil (by simp),
      Utf8.encode_append, Line.bytes]

/-- To write pieces one after the other is to write them together, also where the sink is
    full before the last of them. -/
theorem writeAll_eq_write (sink : Sink) (pieces : List (List UInt8)) :
    sink.writeAll pieces = sink.write pieces.flatten := by
  induction pieces generalizing sink with
  | nil => obtain ⟨written, _ | room⟩ := sink <;> simp [Sink.writeAll, Sink.write]
  | cons piece pieces ih =>
    have joined (written : Array UInt8) (later : List UInt8) : written ++ piece ++ later = written ++ (piece ++ later) :=
      Array.ext' (by simp)
    obtain ⟨written, _ | room⟩ := sink
    · simp only [Sink.writeAll, Sink.write, ih, List.flatten_cons, joined]
    · rw [Sink.writeAll, List.flatten_cons]
      by_cases fits : piece.length ≤ room
      · have more : piece.length + pieces.flatten.length ≤ room ↔ pieces.flatten.length ≤ room - piece.length := by
          omega
        simp only [Sink.write, if_pos fits, ih, List.take_append, List.take_of_length_le fits, List.length_append,
          Nat.sub_sub, more, joined]
      · have more : ¬ piece.length + pieces.flatten.length ≤ room := by omega
        have used : room - piece.length = 0 := by omega
        have full : room - (piece.length + pieces.flatten.length) = 0 := by omega
        simp only [Sink.write, if_neg fits, List.take_append, List.length_append, if_neg more, used, full,
          List.take_zero, List.append_nil]

/-- A sink without a limit takes the whole listing. -/
theorem write_new (words : List Word) : write (.new none) words = (⟨(bytes words).toArray, none⟩, none) := by
  rw [write, writeAll_eq_write, ← List.flatMap_def]
  simp [Sink.new, Sink.write, bytes]

theorem words?_bytes (words : List Word) : words? (bytes words) = some words := by
  have unbroken : ∀ line ∈ (disassemble words).map Line.text ++ [[]], '\n' ∉ line := by
    intro line member
    rw [List.mem_append, List.mem_map, List.mem_singleton] at member
    rcases member with ⟨line, -, rfl⟩ | rfl
    · exact newline_notMem_text line
    · nofun
  have shown : (disassemble words).mapM (wordsOfLine? ∘ Line.text)
      = some ((disassemble words).map fun line => line.content.words) := by
    induction disassemble words with
    | nil => rfl
    | cons line later ih =>
      rw [List.mapM_cons, ih, Function.comp_apply, wordsOfLine?_text]
      rfl
  rw [words?, bytes_eq, Utf8.decode?_encode]
  simp only [List.splitOn_intercalate '\n' unbroken (by simp), List.dropLast_concat, List.mapM_map, shown,
    Option.map_some]
  rw [← List.flatMap_def, disassemble, words_lines]

/-- The listing of an image, as it is written, is read as the image, and images that have the
    same listing are the same. -/
theorem lossless :
    (∀ words, (write (.new none) words).2 = none ∧
      words? (write (.new none) words).1.written.toList = some words) ∧
    ∀ u v, (write (.new none) u).1.written = (write (.new none) v).1.written ↔ u = v := by
  have read (words : List Word) : words? (write (.new none) words).1.written.toList = some words := by
    rw [write_new]
    exact words?_bytes words
  refine ⟨fun words => ⟨by rw [write_new], read words⟩, ?_⟩
  intro u v
  constructor
  · intro same
    have first := read u
    rw [same, read v] at first
    exact (Option.some.inj first).symm
  · rintro rfl
    rfl

end WordMachine.Listing
