import WordMachine.Text.Numeral
import WordMachine.Text.Similarity
import WordMachine.Text.Terminal

/-!
Command lines. A grammar is a list of parameters: places in the line, options
with a value and flags. Reading goes from left to right. An argument that
belongs to nothing is refused where it stands, while an option that still waits
for its value, or holds one that came as an argument of its own, is judged when
the next argument that belongs to something is met, or at the end.
-/
namespace WordMachine.CommandLine

inductive Form
  | positional
  | option
  | flag
deriving DecidableEq

/-- What a parameter accepts as its value. -/
inductive Kind
  /-- Any text that is not empty. -/
  | path
  | text
  /-- A number of sixty-four bits. -/
  | number
deriving DecidableEq

structure Parameter where
  /-- The name, which is also the long name of options and flags. -/
  name : String
  short : Option Char
  form : Form
  kind : Kind
  /-- How messages show the parameter. -/
  shown : String
  /-- The variable of the environment that gives the value if the line does not. -/
  fallback : Option String
deriving DecidableEq

inductive UsageError
  | unexpectedArgument (argument : String)
  /-- An option that is not known; another may be similar to it. -/
  | unknownOption (option : String) (similar : Option String)
  | missingValue (shown : String)
  | unexpectedValue (value shown : String)
  | invalidValue (value shown : String) (cause : Numeral.Refusal)
  | repeated (shown : String)
deriving DecidableEq

namespace UsageError

/-- The text of a refusal. It holds of an argument what a terminal shows. -/
def message : UsageError → String
  | unexpectedArgument argument | unknownOption argument _ =>
    let text := Terminal.visible argument
    s!"unexpected argument '{text}' found"
  | missingValue shown => s!"a value is required for '{shown}' but none was supplied"
  | unexpectedValue value shown =>
    let text := Terminal.visible value
    s!"unexpected value '{text}' for '{shown}' found; no more were expected"
  | invalidValue value shown cause =>
    let text := Terminal.visible value
    s!"invalid value '{text}' for '{shown}': {cause.message}"
  | repeated shown => s!"the argument '{shown}' cannot be used multiple times"

/-- Advice for an option that is not known: a similar one if there is one, or else
    how to give its text as a value. -/
def advice : UsageError → Option String
  | unknownOption _ (some similar) => some s!"a similar argument exists: '--{similar}'"
  | unknownOption option none =>
    let text := Terminal.visible option
    some s!"to pass '{text}' as a value, use '-- {text}'"
  | _ => none

def report (error : UsageError) : String :=
  match error.advice with
  | none => error.message
  | some advice => error.message ++ "\n\n  tip: " ++ advice

end UsageError

/-- The values that have been read, by the names of their parameters. -/
abbrev Values := List (String × String)

abbrev Environment := List (String × String)

/-- The values with one more, which must be of the kind of its parameter. -/
def Parameter.accept (p : Parameter) (values : Values) (value : String) : Except UsageError Values :=
  if (values.lookup p.name).isSome then .error (.repeated p.shown)
  else
    match p.kind with
    | .text => .ok ((p.name, value) :: values)
    | .path => if value = "" then .error (.missingValue p.shown) else .ok ((p.name, value) :: values)
    | .number =>
      match Numeral.parse64 value.toList with
      | .error cause => .error (.invalidValue value p.shown cause)
      | .ok _ => .ok ((p.name, value) :: values)

/-- A parameter that has been met but not judged, with its value if there is one. -/
structure Pending where
  parameter : Parameter
  value : Option String

def settle (values : Values) : Option Pending → Except UsageError Values
  | none => .ok values
  | some ⟨p, none⟩ => .error (.missingValue p.shown)
  | some ⟨p, some value⟩ => p.accept values value

/-- How far a command line has been read. -/
structure Progress where
  values : Values
  pending : Option Pending
  /-- The places that have not been filled. -/
  places : List Parameter
  /-- From here on every argument fills a place. -/
  onlyPlaces : Bool

namespace Progress

/-- Meets a parameter, which judges what was pending. -/
def meet (progress : Progress) (p : Parameter) (value : Option String) : Except UsageError Progress :=
  (settle progress.values progress.pending).map fun values =>
    { progress with values := values, pending := some ⟨p, value⟩ }

def give (progress : Progress) (p : Parameter) (value : String) : Except UsageError Progress :=
  match settle progress.values progress.pending with
  | .error error => .error error
  | .ok values =>
    (p.accept values value).map fun values => { progress with values := values, pending := none }

def fill (progress : Progress) (argument : String) : Except UsageError Progress :=
  match progress.places with
  | [] => .error (.unexpectedArgument argument)
  | p :: places => { progress with places := places }.meet p (some argument)

/-- An argument that is not the name of an option: the value that an option waits
    for, or the next place. -/
def plain (progress : Progress) (argument : String) : Except UsageError Progress :=
  match progress.pending with
  | some ⟨p, none⟩ => .ok { progress with pending := some ⟨p, some argument⟩ }
  | _ => progress.fill argument

/-- An option or flag with its value, if one is attached to it. -/
def named (progress : Progress) (p : Parameter) (value : Option String) : Except UsageError Progress :=
  match p.form, value with
  | .flag, some value => .error (.unexpectedValue value p.shown)
  | .flag, none => progress.give p "true"
  | _, some value => progress.give p value
  | _, none => progress.meet p none

/-- The parts of a long name with a value attached: before the first equals sign,
    and after it. -/
def splitValue (text : List Char) : String × Option String :=
  (String.ofList (text.takeWhile (· ≠ '=')),
    match text.dropWhile (· ≠ '=') with
    | [] => none
    | _ :: value => some (String.ofList value))

/-- The name that a text seems to mean. The name of the option for help is kept free
    in every grammar and counts as one of its names. -/
def similar? (grammar : List Parameter) (text : String) : Option String :=
  Similarity.closest? text ("help" :: (grammar.filter (·.form ≠ .positional)).map (·.name))

/-- An argument that begins with two dashes. -/
def long (progress : Progress) (grammar : List Parameter) (text : List Char) :
    Except UsageError Progress :=
  match splitValue text with
  | (name, value) =>
    match grammar.find? fun p => p.form ≠ .positional && p.name == name with
    | some p => progress.named p value
    | none => .error (.unknownOption ("--" ++ name) (similar? grammar name))

/-- The value that is attached to a short name. -/
def attached : List Char → Option String
  | [] => none
  | '=' :: value => some (String.ofList value)
  | value => some (String.ofList value)

/-- An argument that begins with one dash. -/
def short (progress : Progress) (grammar : List Parameter) (letter : Char) (rest : List Char) :
    Except UsageError Progress :=
  match grammar.find? fun p => p.short == some letter with
  | some p => progress.named p (attached rest)
  | none => .error (.unknownOption (String.ofList ['-', letter]) none)

def next (progress : Progress) (grammar : List Parameter) (argument : String) :
    Except UsageError Progress :=
  if progress.onlyPlaces then progress.fill argument
  else
    match argument.toList with
    | ['-', '-'] => .ok { progress with onlyPlaces := true }
    | '-' :: '-' :: text => progress.long grammar text
    | '-' :: letter :: rest => progress.short grammar letter rest
    | _ => progress.plain argument

end Progress

/-- The values that the environment gives to parameters without one. -/
def complete (environment : Environment) (values : Values) : List Parameter → Except UsageError Values
  | [] => .ok values
  | p :: grammar =>
    match values.lookup p.name, p.fallback.bind fun name => environment.lookup name with
    | none, some value =>
      match p.accept values value with
      | .error error => .error error
      | .ok values => complete environment values grammar
    | _, _ => complete environment values grammar

/-- The values of a command line and, where it gives none, of the environment. -/
def read (grammar : List Parameter) (environment : Environment) (arguments : List String) :
    Except UsageError Values := do
  let start : Progress := ⟨[], none, grammar.filter (·.form = .positional), false⟩
  let progress ← arguments.foldlM (fun progress argument => progress.next grammar argument) start
  let values ← settle progress.values progress.pending
  complete environment values grammar

end WordMachine.CommandLine
