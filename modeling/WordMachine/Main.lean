import WordMachine.CommandLine.Session

/-!
The program. Its first argument names the tool, `run` or `list`, and the others
are the tool's. What a session reads and writes is brought in from the file
system and carried back to it. A run is conversational: it stops where a line is
wanted, and goes on once one has been typed.
-/
namespace WordMachine.Main

/-- What stands at a path of the file system. -/
def observe (path : String) : IO (Option Entry) := do
  let place := (← IO.currentDir) / path
  if ← place.isDir then return some .directory
  if ← place.pathExists then return some (.file (← IO.FS.readBinFile place).toList)
  return none

/-- The disk with everything on the way to a path. -/
def survey (disk : Disk) (path : String) : IO Disk := do
  let mut disk := disk
  let pieces := Path.pieces path.toList
  for length in [0:pieces.length] do
    let text := "/".intercalate ((pieces.take (length + 1)).map String.ofList)
    match disk.locate text with
    | .error _ => pure ()
    | .ok location =>
      match ← observe text with
      | some entry => disk := disk.put location entry
      | none => disk := disk.erase location
  return disk

/-- Carries a file back, if it differs. -/
def carry (before after : Disk) (path : String) : IO Unit := do
  match before.read path, after.read path with
  | _, .error _ => pure ()
  | .ok old, .ok new => if old ≠ new then IO.FS.writeBinFile path ⟨new.toArray⟩
  | .error _, .ok new => IO.FS.writeBinFile path ⟨new.toArray⟩

def put (bytes : List UInt8) : IO Unit := do
  let output ← IO.getStdout
  output.write ⟨bytes.toArray⟩
  output.flush

/-- The bytes typed up to the end of a line, after those already read. -/
partial def typedAfter (taken : Array UInt8) : IO (Array UInt8) := do
  let piece := (← (← IO.getStdin).read 1).data
  let taken := taken ++ piece
  if piece.isEmpty || taken.back? == some 10 then return taken else typedAfter taken

/-- The line typed next, and a break behind it; nothing at the end of input. -/
def typed : IO Source := do
  let bytes := (← typedAfter #[]).toList
  return if bytes.isEmpty then .ofBytes [] else .withBreaks bytes [bytes.length]

/-- Runs a machine on the lines that are typed. The output up to `shown` is out
    already; a machine that stopped for a line repeats its prompt. -/
partial def converse (m : Machine) (shown : Nat) : IO Outcome := do
  let before ← survey m.console.disk m.console.slot
  let (m, result) := { m with console := { m.console with disk := before } }.run none
  carry before m.console.disk m.console.slot
  put (m.console.sink.written.toList.drop shown)
  match result with
  | .error .inputBroken =>
    let source ← typed
    let shown := m.console.sink.written.size + (Console.bytesOfText m.console.prompt).length
    converse { m with console := { m.console with source := source } } shown
  | result => return .ofRun m result

def finish (outcome : Outcome) : IO UInt32 := do
  for line in outcome.diagnostics do IO.eprintln line
  return outcome.exitCode.toUInt32

/-- The variables of the environment that tools look at. -/
def environment : IO CommandLine.Environment :=
  ["SYNACOR_PROGRAM", "SYNACOR_SAVE"].filterMapM fun name => do
    return (← IO.getEnv name).map fun value => (name, value)

/-- The runner, on the terminal. -/
def runner (arguments : List String) : IO UInt32 := do
  match CommandLine.read RunOptions.grammar (← environment) arguments with
  | .error error => finish (.refused .empty error)
  | .ok values =>
    let options := RunOptions.ofValues values
    let disk ← survey .empty options.program
    match loadProgram disk options.program with
    | .error error => finish (.fatal disk error.report)
    | .ok memory => finish (← converse (options.machine memory disk ⟨[.broken]⟩ (.new none)) 0)

def lister (arguments : List String) : IO UInt32 := do
  match CommandLine.read ListOptions.grammar (← environment) arguments with
  | .error error => finish (.refused .empty error)
  | .ok values =>
    let options := ListOptions.ofValues values
    let disk ← survey (← survey .empty options.program) options.output
    let outcome := listSession options disk
    put outcome.output.toList
    carry disk outcome.disk options.output
    finish outcome

end WordMachine.Main

open WordMachine.Main in
def main (arguments : List String) : IO UInt32 := do
  match arguments with
  | "run" :: rest => runner rest
  | "list" :: rest => lister rest
  | _ =>
    IO.eprintln "usage: (run | list) [OPTIONS] [PROGRAM]"
    return 2
