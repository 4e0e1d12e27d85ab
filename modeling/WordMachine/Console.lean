import WordMachine.Command
import WordMachine.Device
import WordMachine.Slot

/-!
The console between a program and its user. It gives the program one word of
input at a time, from a queue of pending words, and asks for a line whenever the
queue is empty. Command lines act on the state of the machine or on the slot and
are answered, and only the other lines reach the queue (`Console.respond`). What
a line does is done even if its answer cannot be written.
-/
namespace WordMachine

structure Console where
  source : Source
  sink : Sink
  /-- The next word comes first. -/
  pending : List Word
  /-- The path that `save` and `load` use. -/
  slot : String
  prompt : String
  disk : Disk

/-- What came of asking for a word of input. -/
inductive Delivery
  | word (word : Word)
  | closed
  | failed (error : DeviceError)
deriving DecidableEq

namespace Console

/-- The prompt that a console has unless told otherwise. -/
def defaultPrompt : String := ">>> "

/-- The slot that a console has unless told otherwise. -/
def defaultSlot : String := "save.json"

/-- The word of a character. Characters that need more than fifteen bits become
    question marks. -/
def wordOfChar (c : Char) : Word :=
  if c.toNat ≤ Word.mask.toNat then UInt16.ofNat c.toNat else 63

/-- The words of a line, with its end. -/
def wordsOfLine (text : List Char) : List Word := (text ++ ['\n']).map wordOfChar

/-- The character with the number of a word. Half of a surrogate pair is none,
    and the replacement character stands for it. -/
def charOfWord (word : Word) : Char :=
  if 0xD800 ≤ word.toNat ∧ word.toNat ≤ 0xDFFF then Utf8.replacement else Char.ofNat word.toNat

/-- The text of a line as it came from the source. -/
def textOfLine (line : List UInt8) : String := String.ofList (Utf8.decodeLossy (chomp line))

def bytesOfText (text : String) : List UInt8 := Utf8.encode text.toList

/-- The answer to a line, with an empty line after it. -/
def bytesOfReply (reply : String) : List UInt8 := bytesOfText (reply ++ "\n\n")

def write (console : Console) (bytes : List UInt8) : Console × Option DeviceError :=
  match console with
  | ⟨source, sink, pending, slot, prompt, disk⟩ =>
    match sink.write bytes with
    | (sink, failure) => (⟨source, sink, pending, slot, prompt, disk⟩, failure)

def emit (console : Console) (word : Word) : Console × Option DeviceError :=
  console.write (Utf8.encode [charOfWord word])

/-- Puts a line at the end of the pending input, whatever it begins with. -/
def queueLine (console : Console) (text : String) : Console :=
  { console with pending := console.pending ++ wordsOfLine text.toList }

/-- What a line does, and its answer. A line of input has none. -/
def respond (console : Console) (s : State) (line : String) : Console × State × Option String :=
  match Command.parse line with
  | .error error => (console, s, some error.message)
  | .ok .save =>
    match Slot.save console.disk console.slot s with
    | .ok disk => ({ console with disk := disk }, s, some "Saved.")
    | .error error => (console, s, some ("Save failed: " ++ error.message))
  | .ok .load =>
    match Slot.load console.disk console.slot with
    | .ok loaded => (console, loaded, some "Loaded.")
    | .error error => (console, s, some ("Load failed: " ++ error.message))
  | .ok (.setRegister7 value) =>
    (console, { s with registers := s.registers.set 7 value (by decide) }, some s!"Set register 7 to {value.toNat}")
  | .ok (.input text) => (console.queueLine text, s, none)

/-- Writes the answer to a line, if it has one. -/
def answer (console : Console) : Option String → Console × Option DeviceError
  | none => (console, none)
  | some reply => console.write (bytesOfReply reply)

@[simp] theorem source_write (console : Console) (bytes : List UInt8) :
    (console.write bytes).1.source = console.source := rfl

@[simp] theorem source_queueLine (console : Console) (text : String) :
    (console.queueLine text).source = console.source := rfl

@[simp] theorem source_respond (console : Console) (s : State) (line : String) :
    (console.respond s line).1.source = console.source := by
  unfold respond
  split
  · rfl
  · split <;> rfl
  · split <;> rfl
  · rfl
  · rfl

@[simp] theorem source_answer (console : Console) (reply : Option String) :
    (console.answer reply).1.source = console.source := by
  cases reply <;> rfl

/-- One turn at the prompt: a line is asked for, obeyed and answered. The turn ends
    the request for input if it comes to a delivery; otherwise the queue is looked
    at again. -/
def turn (console : Console) (s : State) : Option Delivery × Console × State :=
  match console.write (bytesOfText console.prompt) with
  | (asked, some error) => (some (.failed error), asked, s)
  | (asked, none) =>
    match asked.source.readLine with
    | (.failed error, source) => (some (.failed error), { asked with source := source }, s)
    | (.closed, source) => (some .closed, { asked with source := source }, s)
    | (.line line, source) =>
      match respond { asked with source := source } s (textOfLine line) with
      | (obeyed, s, reply) =>
        match obeyed.answer reply with
        | (answered, some error) => (some (.failed error), answered, s)
        | (answered, none) => (none, answered, s)

/-- A turn after which the queue is looked at again has taken a line off the source. -/
theorem length_source_turn_lt {console after : Console} {s t : State}
    (again : console.turn s = (none, after, t)) :
    after.source.signals.length < console.source.signals.length := by
  unfold turn at again
  split at again
  · simp at again
  · next asked written =>
    have unread : asked.source = console.source := by
      simpa [written] using source_write console (bytesOfText console.prompt)
    split at again
    · simp at again
    · simp at again
    · next line source read =>
      split at again
      next obeyed u reply obeys =>
      have kept : obeyed.source = source := by
        simpa [obeys] using source_respond { asked with source := source } s (textOfLine line)
      split at again
      · simp at again
      · next answered answers =>
        have rest : answered.source = obeyed.source := by
          simpa [answers] using source_answer obeyed reply
        cases again
        rw [rest, kept, ← unread]
        exact Source.length_readLine_lt read

/-- The next word of input for the program, the console after it, and the state
    that command lines may have changed before it. -/
def nextInput (console : Console) (s : State) : Delivery × Console × State :=
  match console.pending with
  | word :: rest => (.word word, { console with pending := rest }, s)
  | [] =>
    match _turned : console.turn s with
    | (some delivery, after, s) => (delivery, after, s)
    | (none, after, s) => after.nextInput s
termination_by console.source.signals.length
decreasing_by exact length_source_turn_lt _turned

/-- As long as words are pending nothing is read or written. -/
theorem nextInput_of_pending {console : Console} {word : Word} {rest : List Word}
    (waiting : console.pending = word :: rest) (s : State) :
    console.nextInput s = (.word word, { console with pending := rest }, s) := by
  rw [nextInput]
  simp only [waiting]

/-- A turn that comes to a delivery ends the request. -/
theorem nextInput_of_turn_some {console after : Console} {s t : State} {delivery : Delivery}
    (empty : console.pending = []) (turned : console.turn s = (some delivery, after, t)) :
    console.nextInput s = (delivery, after, t) := by
  rw [nextInput]
  simp only [empty]
  split
  · next again =>
    rw [turned] at again
    cases again
    rfl
  · next again =>
    rw [turned] at again
    cases again

/-- Any other turn leaves the request to the console as it is then. -/
theorem nextInput_of_turn_none {console after : Console} {s t : State}
    (empty : console.pending = []) (turned : console.turn s = (none, after, t)) :
    console.nextInput s = after.nextInput t := by
  rw [nextInput]
  simp only [empty]
  split
  · next again =>
    rw [turned] at again
    cases again
  · next again =>
    rw [turned] at again
    cases again
    rfl

end Console

end WordMachine
