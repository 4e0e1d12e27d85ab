import WordMachine.State

/-!
Snapshots. A snapshot is a state as lists of words, with the top of the stack
last. Every state has one (`Snapshot.capture`), and a snapshot is the one of a
state if its program counter lies in memory, there are eight registers and there
is a word for every cell (`Snapshot.restore`).
-/
namespace WordMachine

structure Snapshot where
  pc : Word
  registers : List Word
  /-- The top comes last. -/
  stack : List Word
  memory : List Word
deriving DecidableEq

/-- Why a snapshot is none of a state; the first that applies counts. -/
inductive Defect
  | pcOutside (pc : Word)
  | registerCount (count : Nat)
  | memoryLength (length : Nat)
deriving DecidableEq

def Defect.message : Defect → String
  | pcOutside pc => s!"pc {pc.toNat} outside memory"
  | registerCount count => s!"register count mismatch (expected {Registers.count}, got {count})"
  | memoryLength length => s!"memory length mismatch (expected {Memory.size}, got {length})"

/-- The registers with the given words; `none` if there are not eight. -/
def Registers.ofWords? (words : List Word) : Option Registers :=
  if eight : words.toArray.size = 8 then some ⟨words.toArray, eight⟩ else none

@[simp] theorem Registers.ofWords?_toList (registers : Registers) :
    Registers.ofWords? registers.toList = some registers := by
  obtain ⟨cells, eight⟩ := registers
  simp [ofWords?, eight]

/-- The memory with the given words, one for every cell. -/
def Memory.ofDump (words : List Word) : Except Defect Memory :=
  match Memory.ofWords? words with
  | some memory => .ok memory
  | none => .error (.memoryLength words.length)

namespace Snapshot

def capture (s : State) : Snapshot :=
  ⟨s.pc, s.registers.toList, s.stack.reverse, s.memory.words⟩

def restore (snapshot : Snapshot) : Except Defect State :=
  if snapshot.pc.toNat < Memory.size then
    match Registers.ofWords? snapshot.registers with
    | none => .error (.registerCount snapshot.registers.length)
    | some registers =>
      match Memory.ofDump snapshot.memory with
      | .error defect => .error defect
      | .ok memory => .ok ⟨snapshot.pc, registers, snapshot.stack.reverse, memory⟩
  else .error (.pcOutside snapshot.pc)

theorem restore_capture {s : State} (inside : s.pc.toNat < Memory.size) :
    restore (capture s) = .ok s := by
  simp [restore, capture, inside, Memory.ofDump]

end Snapshot

end WordMachine
