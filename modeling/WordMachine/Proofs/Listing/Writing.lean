import WordMachine.Proofs.Listing.Lossless

/-!
Listings on a writer that fails. A line reaches a writer in several texts (`Line.pieces`), and
a writer may take of a text as much as it likes at a time (`Sink.Writes`). None of this can be
told from what has been written in the end (`Sink.writes_iff`), so that a writer with a limit
has the listing up to its limit, wherever in a line that is (`Listing.write_truncates`).
-/
namespace WordMachine

namespace Sink

variable {sink after : Sink} {texts : List (List UInt8)} {error : Option DeviceError}

/-- Texts are written one after the other, each a chunk at a time, as many bytes as the sink
    takes and at least one. A sink without room fails the first text of which something is left. -/
inductive Writes : Sink → List (List UInt8) → Sink → Option DeviceError → Prop
  | done {sink : Sink} : Writes sink [] sink none
  | next {sink after : Sink} {texts : List (List UInt8)} {error : Option DeviceError} :
      Writes sink texts after error → Writes sink ([] :: texts) after error
  | chunk {sink after : Sink} {chunk text : List UInt8} {texts : List (List UInt8)} {error : Option DeviceError} :
      chunk ≠ [] → (sink.write chunk).2 = none → Writes (sink.write chunk).1 (text :: texts) after error →
      Writes sink ((chunk ++ text) :: texts) after error
  | full {sink : Sink} {text : List UInt8} {texts : List (List UInt8)} :
      sink.room = some 0 → text ≠ [] → Writes sink (text :: texts) sink (some .outputFull)

/-- A sink that has room for the first bytes writes those behind them afterwards. -/
theorem write_append {first : List UInt8} (fits : (sink.write first).2 = none) (second : List UInt8) :
    sink.write (first ++ second) = (sink.write first).1.write second := by
  have joined := Listing.writeAll_eq_write sink [first, second]
  have parted : sink.write first = ((sink.write first).1, none) := Prod.ext rfl fits
  rw [writeAll, parted] at joined
  simpa [Listing.writeAll_eq_write] using joined.symm

theorem write_full {text : List UInt8} (room : sink.room = some 0) (some_left : text ≠ []) :
    sink.write text = (sink, some .outputFull) := by
  obtain ⟨written, _⟩ := sink
  cases room
  simp [write, some_left]

/-- A text that does not fit fills the sink, and something of it is left. -/
theorem exists_append_of_not_fits {text : List UInt8} (fits : (sink.write text).2 ≠ none) :
    ∃ first second, text = first ++ second ∧ second ≠ [] ∧ (sink.write first).2 = none ∧
      (sink.write first).1.room = some 0 := by
  obtain ⟨written, _ | room⟩ := sink
  · exact absurd rfl fits
  · have long : room < text.length := Nat.lt_of_not_le fun short => fits (if_pos short)
    refine ⟨text.take room, text.drop room, (List.take_append_drop room text).symm, ?_, ?_, ?_⟩
    · exact List.ne_nil_of_length_pos (by rw [List.length_drop]; omega)
    · exact if_pos (List.length_take_le room text)
    · simp only [write, List.length_take_of_le (Nat.le_of_lt long), Nat.sub_self]

theorem Writes.write_eq (writes : Writes sink texts after error) : sink.write texts.flatten = (after, error) := by
  induction writes with
  | done => exact write_nil _
  | next _ ih => exact ih
  | chunk _ fits _ ih => rwa [List.flatten_cons, List.append_assoc, write_append fits]
  | full room some_left => exact write_full room fun none => some_left (List.append_eq_nil_iff.mp none).1

theorem Writes.of_chunk {chunk text : List UInt8} (fits : (sink.write chunk).2 = none)
    (writes : Writes (sink.write chunk).1 (text :: texts) after error) :
    Writes sink ((chunk ++ text) :: texts) after error := by
  by_cases empty : chunk = []
  · subst empty
    rwa [write_nil] at writes
  · exact .chunk empty fits writes

/-- However texts are divided, a sink takes of them what it takes of all their bytes together. -/
theorem writes_iff : Writes sink texts after error ↔ sink.write texts.flatten = (after, error) := by
  refine ⟨Writes.write_eq, fun written => ?_⟩
  induction texts generalizing sink with
  | nil =>
    rw [List.flatten_nil, write_nil] at written
    cases written
    exact .done
  | cons text texts ih =>
    by_cases fits : (sink.write text).2 = none
    · rw [List.flatten_cons, write_append fits] at written
      rw [← List.append_nil text]
      exact .of_chunk fits (.next (ih written))
    · obtain ⟨first, second, rfl, some_left, taken, filled⟩ := exists_append_of_not_fits fits
      have more : second ++ texts.flatten ≠ [] := fun none => some_left (List.append_eq_nil_iff.mp none).1
      rw [List.flatten_cons, List.append_assoc, write_append taken, write_full filled more] at written
      cases written
      exact .of_chunk taken (.full filled some_left)

end Sink

namespace Listing

/-- The texts that are written for what a line shows. -/
def Content.pieces : Content → List (List Char)
  | instruction op operands => op.mnemonic.toList :: operands.flatMap fun w => [[' '], Numeral.digits w.toNat]
  | data word => [['>', '>', ' '], Numeral.digits word.toNat]

/-- The texts that are written for a line, the padding one space at a time. -/
def Line.pieces (line : Line) : List (List Char) :=
  List.replicate (5 - (Numeral.digits line.address).length) [' '] ++ Numeral.digits line.address :: [':', ' '] ::
    (line.content.pieces ++ [['\n']])

theorem flatten_operands (first : List Char) (operands : List Word) :
    first ++ (operands.flatMap fun w => [[' '], Numeral.digits w.toNat]).flatten =
      [' '].intercalate (first :: operands.map fun w => Numeral.digits w.toNat) := by
  induction operands generalizing first with
  | nil => simp
  | cons w operands ih =>
    rw [List.map_cons, List.intercalate_cons_of_ne_nil (List.cons_ne_nil _ _), ← ih, List.flatMap_cons]
    simp

theorem Content.flatten_pieces (content : Content) : content.pieces.flatten = [' '].intercalate content.fields := by
  cases content with
  | instruction op operands => exact flatten_operands op.mnemonic.toList operands
  | data word => simp [pieces, fields, List.intercalate_cons_of_ne_nil]

/-- The texts of a line are the line. -/
theorem Line.flatten_pieces (line : Line) : line.pieces.flatten = line.text ++ ['\n'] := by
  have padding (n : Nat) : (List.replicate n [' ']).flatten = List.replicate n ' ' := by simp
  rw [pieces, List.flatten_append, padding, List.flatten_cons, List.flatten_cons, List.flatten_append,
    Content.flatten_pieces, text, column]
  simp

/-- The bytes of the texts of a listing are the listing. -/
theorem flatten_pieces (words : List Word) :
    (((disassemble words).flatMap Line.pieces).map Utf8.encode).flatten = bytes words := by
  have encoded (pieces : List (List Char)) : (pieces.map Utf8.encode).flatten = Utf8.encode pieces.flatten := by
    induction pieces with
    | nil => rfl
    | cons piece pieces ih => rw [List.map_cons, List.flatten_cons, ih, List.flatten_cons, Utf8.encode_append]
  rw [encoded, bytes]
  induction disassemble words with
  | nil => rfl
  | cons line later ih =>
    rw [List.flatMap_cons, List.flatten_append, Utf8.encode_append, ih, List.flatMap_cons, Line.flatten_pieces,
      Line.bytes]

theorem write_eq (sink : Sink) (words : List Word) : write sink words = sink.write (bytes words) := by
  rw [write, writeAll_eq_write, ← List.flatMap_def, bytes]

/-- A writer that has room for so many bytes has exactly so many from the front of the listing,
    or all of it, and it fails if the listing is longer. The listing may come line by line, or
    in the texts of each line and in any chunks of them, and a line is its text and its end. -/
theorem write_truncates (words : List Word) (limit : Nat) :
    let listing := (disassemble words).flatMap fun line => Utf8.encode (line.text ++ ['\n'])
    let texts := ((disassemble words).flatMap Line.pieces).map Utf8.encode
    (write (.new none) words).1.written.toList = listing ∧ (write (.new none) words).2 = none ∧
      (write (.new (some limit)) words).1.written.toList = listing.take (min limit listing.length) ∧
      ((write (.new (some limit)) words).2 ≠ none ↔ limit < listing.length) ∧
      ∀ after error, Sink.Writes (.new (some limit)) texts after error ↔
        write (.new (some limit)) words = (after, error) := by
  intro listing texts
  have whole : bytes words = listing := rfl
  have joined : texts.flatten = listing := flatten_pieces words
  refine ⟨by rw [write_new, whole], by rw [write_new], ?_, ?_, ?_⟩
  · rw [write_eq, whole, Sink.toList_written_write]
    simp [Sink.new]
  · rw [write_eq, whole, Ne, Sink.write_eq_none_iff]
    simp [Sink.new]
  · intro after error
    rw [Sink.writes_iff, joined, write_eq, whole]

end Listing

end WordMachine
