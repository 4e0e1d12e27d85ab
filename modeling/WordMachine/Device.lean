/-!
The devices of a console. A source gives the bytes of the input one after the
other and may break in between; reading a line takes it off the source, and a
break takes with it what was read of the line before it. A sink keeps what is
written to it and may have room for so many bytes only: what does not fit is
lost, and the write fails.
-/
namespace WordMachine

inductive DeviceError
  | inputBroken
  | outputFull
deriving DecidableEq

def DeviceError.message : DeviceError → String
  | inputBroken => "input broken"
  | outputFull => "output full"

/-- What a source gives next: a byte, or one failure. -/
inductive Signal
  | byte (value : UInt8)
  | broken
deriving DecidableEq

/-- The input that has not been read. -/
structure Source where
  signals : List Signal
deriving DecidableEq

/-- What came of reading a line. A line has its end of line with it, if any. -/
inductive Reading
  | line (bytes : List UInt8)
  | closed
  | failed (error : DeviceError)
deriving DecidableEq

namespace Source

def ofBytes (bytes : List UInt8) : Source := ⟨bytes.map .byte⟩

/-- A source that fails once at each of the given places, each a number of bytes
    read before. Places past the end are never reached. -/
def withBreaks (bytes : List UInt8) (breaks : List Nat) : Source :=
  let broken (place : Nat) := List.replicate (breaks.count place) Signal.broken
  ⟨(bytes.zipIdx.flatMap fun (b, place) => broken place ++ [.byte b]) ++ broken bytes.length⟩

/-- The bytes that have not been read. -/
def unread (source : Source) : List UInt8 :=
  source.signals.filterMap fun
    | .byte b => some b
    | .broken => none

/-- The rest of a line of which the given bytes have been read, last first. -/
def lineAfter (taken : List UInt8) : List Signal → Reading × List Signal
  | [] => (if taken.isEmpty then .closed else .line taken.reverse, [])
  | .broken :: rest => (.failed .inputBroken, rest)
  | .byte b :: rest =>
    if b = 10 then (.line (b :: taken).reverse, rest) else lineAfter (b :: taken) rest

/-- The next line, and the source after it. -/
def readLine (source : Source) : Reading × Source :=
  match lineAfter [] source.signals with
  | (reading, rest) => (reading, ⟨rest⟩)

@[simp] theorem unread_ofBytes (bytes : List UInt8) : (ofBytes bytes).unread = bytes := by
  simp [ofBytes, unread, List.filterMap_map, Function.comp_def]

theorem length_lineAfter_le (taken : List UInt8) (signals : List Signal) :
    (lineAfter taken signals).2.length ≤ signals.length := by
  induction signals generalizing taken with
  | nil => simp [lineAfter]
  | cons signal rest ih =>
    rcases signal with b | _
    · simp only [lineAfter]
      split
      · exact Nat.le_succ _
      · exact Nat.le_succ_of_le (ih _)
    · exact Nat.le_succ _

/-- A line that was read is no longer on the source. -/
theorem length_readLine_lt {source after : Source} {line : List UInt8}
    (read : source.readLine = (.line line, after)) : after.signals.length < source.signals.length := by
  obtain ⟨signals⟩ := source
  have same : after.signals = (lineAfter [] signals).2 := by
    simp only [readLine] at read
    simp [← (Prod.mk.inj read).2]
  have given : (lineAfter [] signals).1 = .line line := by
    simp only [readLine] at read
    exact (Prod.mk.inj read).1
  rw [same]
  rcases signals with _ | ⟨b | _, rest⟩
  · simp [lineAfter] at given
  · simp only [lineAfter]
    split
    · exact Nat.lt_succ_self _
    · exact Nat.lt_succ_of_le (length_lineAfter_le _ _)
  · simp [lineAfter] at given

end Source

/-- The end of a line and one carriage return before it are no part of its text. -/
def chomp (line : List UInt8) : List UInt8 :=
  match line.reverse with
  | 10 :: 13 :: text => text.reverse
  | 10 :: text => text.reverse
  | _ => line

/-- What has been written, and how many bytes more there is room for, if that is
    bounded. -/
structure Sink where
  written : Array UInt8
  room : Option Nat
deriving DecidableEq

namespace Sink

def new (room : Option Nat) : Sink := ⟨#[], room⟩

/-- The sink after a write, and the failure, if not all bytes fit. -/
def write (sink : Sink) (bytes : List UInt8) : Sink × Option DeviceError :=
  match sink with
  | ⟨written, none⟩ => (⟨written ++ bytes, none⟩, none)
  | ⟨written, some room⟩ =>
    (⟨written ++ bytes.take room, some (room - bytes.length)⟩,
      if bytes.length ≤ room then none else some .outputFull)

theorem write_nil (sink : Sink) : sink.write [] = (sink, none) := by
  obtain ⟨written, _ | room⟩ := sink <;> simp [write]

/-- A write adds as many of its bytes as there is room for. -/
theorem toList_written_write (sink : Sink) (bytes : List UInt8) :
    (sink.write bytes).1.written.toList
      = sink.written.toList ++ bytes.take (sink.room.getD bytes.length) := by
  obtain ⟨written, _ | room⟩ := sink <;> simp [write]

/-- A write fails if there is not room for all of its bytes. -/
theorem write_eq_none_iff {sink : Sink} {bytes : List UInt8} :
    (sink.write bytes).2 = none ↔ ∀ room, sink.room = some room → bytes.length ≤ room := by
  obtain ⟨written, _ | room⟩ := sink <;> simp [write]

/-- The sink after several writes, which stop at the first failure. -/
def writeAll (sink : Sink) : List (List UInt8) → Sink × Option DeviceError
  | [] => (sink, none)
  | bytes :: rest =>
    match sink.write bytes with
    | (after, none) => after.writeAll rest
    | (after, some error) => (after, some error)

end Sink

end WordMachine
