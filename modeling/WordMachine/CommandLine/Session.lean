import WordMachine.CommandLine.Grammar
import WordMachine.Listing
import WordMachine.Machine
import WordMachine.Program

/-!
Sessions. The runner loads a program and runs it on the console until it stops;
the lister writes the listing of a program to a file or to the standard output.
What a session says besides its output are diagnostics, each on lines of its own.
-/
namespace WordMachine
open CommandLine

/-- What a session leaves behind. -/
structure Outcome where
  exitCode : Nat
  output : Array UInt8
  diagnostics : List String
  disk : Disk

namespace Outcome

/-- The exit code of a session that could not do its work. -/
def fatalCode : Nat := 1

/-- The exit code of a program that faulted, and of a refused command line. -/
def faultCode : Nat := 2

def fatal (disk : Disk) (text : String) : Outcome := ⟨fatalCode, #[], ["fatal: " ++ text], disk⟩

def refused (disk : Disk) (error : UsageError) : Outcome :=
  ⟨faultCode, #[], ["error: " ++ error.report], disk⟩

end Outcome

/-- Why a program could not be loaded, with the cause after it. -/
def ProgramError.report : ProgramError → String
  | unreadable path cause => (unreadable path cause).message ++ ": " ++ cause.message
  | tooLarge error => error.message

/-- The program that is loaded unless told otherwise. -/
def defaultProgram : String := "challenge.bin"

/-- The place of the program, which both tools have. -/
def programPlace : Parameter :=
  ⟨"program", none, .positional, .path, "[PROGRAM]", some "SYNACOR_PROGRAM"⟩

structure RunOptions where
  program : String
  save : String
  prompt : String
  maxSteps : Option Nat
deriving DecidableEq

namespace RunOptions

/-- The parameters of the runner. Tracing is accepted and changes nothing that a
    session leaves behind. -/
def grammar : List Parameter := [
  programPlace,
  ⟨"save", none, .option, .path, "--save <PATH>", some "SYNACOR_SAVE"⟩,
  ⟨"prompt", none, .option, .text, "--prompt <PROMPT>", none⟩,
  ⟨"max-steps", none, .option, .number, "--max-steps <N>", none⟩,
  ⟨"trace", none, .flag, .text, "--trace", none⟩]

def ofValues (values : Values) : RunOptions where
  program := (values.lookup "program").getD defaultProgram
  save := (values.lookup "save").getD Console.defaultSlot
  prompt := (values.lookup "prompt").getD Console.defaultPrompt
  maxSteps := (values.lookup "max-steps").bind fun value => (Numeral.parse64 value.toList).toOption

/-- The machine that is about to run a program. -/
def machine (options : RunOptions) (memory : Memory) (disk : Disk) (source : Source) (sink : Sink) :
    Machine :=
  .new (.start memory) ⟨source, sink, [], options.save, options.prompt, disk⟩ options.maxSteps

end RunOptions

/-- The exit code of a run, and what it says. -/
def Status.report (status : Status) (steps : Nat) : Nat × List String :=
  match status with
  | .faulted fault => (Outcome.faultCode, [s!"fault: {fault.message} (after {steps} instructions)"])
  | .running => (0, [s!"stopped after {steps} instructions"])
  | .halted | .inputClosed => (0, [])

/-- The end of a run: the machine after it, and its last status or failure. -/
def Outcome.ofRun (m : Machine) : Except DeviceError Status → Outcome
  | .ok status =>
    match status.report m.steps with
    | (code, diagnostics) => ⟨code, m.console.sink.written, diagnostics, m.console.disk⟩
  | .error error =>
    ⟨fatalCode, m.console.sink.written, ["fatal: io error: " ++ error.message ++ ": " ++ error.message],
      m.console.disk⟩

def runSession (options : RunOptions) (disk : Disk) (source : Source) : Outcome :=
  match loadProgram disk options.program with
  | .error error => .fatal disk error.report
  | .ok memory =>
    match (options.machine memory disk source (.new none)).run none with
    | (m, result) => .ofRun m result

structure ListOptions where
  program : String
  output : String
deriving DecidableEq

namespace ListOptions

def grammar : List Parameter := [
  programPlace,
  ⟨"output", some 'o', .option, .path, "--output <PATH>", none⟩]

def ofValues (values : Values) : ListOptions where
  program := (values.lookup "program").getD defaultProgram
  output := (values.lookup "output").getD "challenge.asm"

end ListOptions

/-- A session of the lister. A single dash stands for the standard output. -/
def listSession (options : ListOptions) (disk : Disk) : Outcome :=
  match loadProgram disk options.program with
  | .error error => .fatal disk error.report
  | .ok memory =>
    let listing := Listing.bytes memory.words
    if options.output = "-" then ⟨0, listing.toArray, [], disk⟩
    else
      match disk.create options.output with
      | .error error => .fatal disk s!"creating {options.output}: {error.message}"
      | .ok location => ⟨0, #[], [], disk.put location (.file listing)⟩

inductive Tool
  | runner
  | lister
deriving DecidableEq

/-- A session of a tool from its command line on. -/
def Tool.session (tool : Tool) (environment : Environment) (arguments : List String) (disk : Disk)
    (source : Source) : Outcome :=
  match tool with
  | .runner =>
    match read RunOptions.grammar environment arguments with
    | .error error => .refused disk error
    | .ok values => runSession (.ofValues values) disk source
  | .lister =>
    match read ListOptions.grammar environment arguments with
    | .error error => .refused disk error
    | .ok values => listSession (.ofValues values) disk

end WordMachine
