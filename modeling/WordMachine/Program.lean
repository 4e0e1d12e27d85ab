import WordMachine.Disk
import WordMachine.Memory

/-!
Programs on a disk: a file whose bytes are the image of a memory.
-/
namespace WordMachine

inductive ProgramError
  | unreadable (path : String) (cause : DiskError)
  | tooLarge (error : ImageTooLarge)
deriving DecidableEq

def ProgramError.message : ProgramError → String
  | unreadable path cause => s!"failed to load program {path}: {cause.message}"
  | tooLarge error => error.message

/-- The memory that the program at a path fills. -/
def loadProgram (disk : Disk) (path : String) : Except ProgramError Memory :=
  match disk.read path with
  | .error error => .error (.unreadable path error)
  | .ok bytes =>
    match Memory.ofBytes bytes with
    | .error error => .error (.tooLarge error)
    | .ok memory => .ok memory

end WordMachine
