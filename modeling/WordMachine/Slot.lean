import WordMachine.Disk
import WordMachine.Snapshot.Reader
import WordMachine.Snapshot.Writer

/-!
Slots. A slot is a path on a disk at which a state is saved as the text of its
snapshot. A save replaces the file as a whole, so one that fails leaves the disk
as it was; a load checks the snapshot, which a save does not.
-/
namespace WordMachine

inductive SlotError
  /-- The path leads to no file. -/
  | inaccessible (path : String) (cause : DiskError)
  /-- The path leads to something that cannot be read. -/
  | unreadable (path : String) (cause : DiskError)
  /-- The text is no snapshot. -/
  | malformed (path : String) (cause : Json.Error)
  /-- The snapshot is none of a state. -/
  | inconsistent (defect : Defect)

def SlotError.message : SlotError → String
  | inaccessible path cause => s!"snapshot slot {path}: {cause.message}"
  | unreadable path cause => s!"snapshot error: {path}: {cause.message}"
  | malformed path cause => s!"snapshot error: {path}: {cause.message}"
  | inconsistent defect => s!"snapshot error: {defect.message}"

namespace Slot

/-- The state that the bytes of a slot hold. -/
def decode (path : String) (bytes : List UInt8) : Except SlotError State :=
  match Snapshot.parse bytes with
  | .error error => .error (.malformed path error)
  | .ok snapshot =>
    match snapshot.restore with
    | .error defect => .error (.inconsistent defect)
    | .ok s => .ok s

def save (disk : Disk) (path : String) (s : State) : Except SlotError Disk :=
  match disk.replace path (Snapshot.capture s).bytes with
  | .error error => .error (.inaccessible path error)
  | .ok disk => .ok disk

def load (disk : Disk) (path : String) : Except SlotError State :=
  match disk.find path with
  | .error error => .error (.inaccessible path error)
  | .ok .directory => .error (.unreadable path .isADirectory)
  | .ok (.file bytes) => decode path bytes

end Slot

end WordMachine
