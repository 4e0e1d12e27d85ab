import WordMachine.Device
import WordMachine.Operation
import WordMachine.Text.Numeral
import WordMachine.Text.Utf8

/-!
Listings. An image is read from its first word to its last, each line taking an
operation with its operands or one word that names no operation, whatever a
program would do with it. Operands that the image does not hold are left out,
which concerns the last line only.
-/
namespace WordMachine

namespace Listing

/-- What a line shows. -/
inductive Content
  | instruction (operation : Operation) (operands : List Word)
  | data (word : Word)
deriving DecidableEq

/-- A line of a listing, with the address of its first word. -/
structure Line where
  address : Nat
  content : Content
deriving DecidableEq

namespace Content

def words : Content → List Word
  | instruction op operands => op.code :: operands
  | data word => [word]

/-- The fields of a line after its address. -/
def fields : Content → List (List Char)
  | instruction op operands => op.mnemonic.toList :: operands.map fun w => Numeral.digits w.toNat
  | data word => [['>', '>'], Numeral.digits word.toNat]

end Content

namespace Line

def width (line : Line) : Nat := line.content.words.length

/-- The address, at least five columns wide and to the right of them. -/
def column (address : Nat) : List Char :=
  let digits := Numeral.digits address
  List.replicate (5 - digits.length) ' ' ++ digits

def text (line : Line) : List Char :=
  column line.address ++ [':', ' '] ++ [' '].intercalate line.content.fields

/-- The bytes of a line, with its end. -/
def bytes (line : Line) : List UInt8 := Utf8.encode (line.text ++ ['\n'])

end Line

/-- The line at the front of words that stand at an address. -/
def lineAt (address : Nat) (word : Word) (rest : List Word) : Line :=
  match Operation.ofWord? word with
  | some op => ⟨address, .instruction op (rest.take op.arity)⟩
  | none => ⟨address, .data word⟩

theorem width_lineAt_pos (address : Nat) (word : Word) (rest : List Word) :
    0 < (lineAt address word rest).width := by
  unfold lineAt
  split <;> exact Nat.succ_pos _

/-- The lines of words that stand at an address, after those already found,
    which come last first. -/
def linesAfter (found : List Line) (address : Nat) : List Word → List Line
  | [] => found.reverse
  | word :: rest =>
    let line := lineAt address word rest
    linesAfter (line :: found) (address + line.width) (rest.drop (line.width - 1))
termination_by words => words.length
decreasing_by simp only [List.length_drop, List.length_cons]; omega

/-- The lines of words that stand at an address. -/
def lines (address : Nat) (words : List Word) : List Line := linesAfter [] address words

theorem linesAfter_eq (found : List Line) (address : Nat) (words : List Word) :
    linesAfter found address words = found.reverse ++ lines address words := by
  have general : ∀ (n : Nat) (found : List Line) (address : Nat) (words : List Word), words.length ≤ n →
      linesAfter found address words = found.reverse ++ linesAfter [] address words := by
    intro n
    induction n with
    | zero =>
      intro found address words short
      rw [List.length_eq_zero_iff.mp (Nat.le_zero.mp short)]
      simp [linesAfter]
    | succ n ih =>
      intro found address words short
      rcases words with _ | ⟨word, rest⟩
      · simp [linesAfter]
      · have shorter : (rest.drop ((lineAt address word rest).width - 1)).length ≤ n := by
          simp only [List.length_drop, List.length_cons] at short ⊢
          omega
        rw [linesAfter, linesAfter, ih _ _ _ shorter, ih [lineAt address word rest] _ _ shorter]
        simp
  exact general _ found address words (Nat.le_refl _)

@[simp] theorem lines_nil (address : Nat) : lines address [] = [] := by
  simp [lines, linesAfter]

/-- A line is followed by the lines of the words behind it. -/
theorem lines_cons (address : Nat) (word : Word) (rest : List Word) :
    lines address (word :: rest) = lineAt address word rest ::
      lines (address + (lineAt address word rest).width)
        (rest.drop ((lineAt address word rest).width - 1)) := by
  rw [lines, linesAfter, linesAfter_eq]
  rfl

end Listing

open Listing in
def disassemble (words : List Word) : List Line := lines 0 words

namespace Listing

def bytes (words : List Word) : List UInt8 := (disassemble words).flatMap Line.bytes

/-- Writes the listing of an image line by line. -/
def write (sink : Sink) (words : List Word) : Sink × Option DeviceError :=
  sink.writeAll ((disassemble words).map Line.bytes)

end Listing

end WordMachine
