import DetachedSchema.Command

/-!
# Arguments

The arguments of the program.  Options that hold for every command stand in front of its name, and
the options and the operand of a command behind it.  A value stands in the argument of its option or
in the next one.
-/

namespace DetachedSchema

/-- What the program is asked to do and how to tell about it. -/
structure Arguments where
  /-- The file with the settings. -/
  settings : Option String
  /-- Whether results are printed as JSON. -/
  asJson : Bool
  logFormat : LogFormat
  verbosity : String
  command : Command
deriving DecidableEq

namespace Arguments

/-- Why the program does not run. -/
inductive Stop
  | help
  | version
  /-- The arguments cannot be understood. -/
  | mistake
deriving DecidableEq

/-- What follows an option. -/
inductive Kind
  /-- Nothing; the option is there or not. -/
  | switch
  | text
  /-- The path of a file. -/
  | path
  /-- One of some words. -/
  | choice (words : List String)
  /-- Nothing; the option asks for something to be shown instead. -/
  | stop (stop : Stop)
deriving DecidableEq

/-- An option by its name, or the operand of a command. -/
structure Parameter where
  name : String
  /-- The letter that may stand for the name. -/
  letter : Option Char := none
  kind : Kind
deriving DecidableEq

/-- The options, the operand and the commands that are known in a place. -/
structure Grammar where
  options : List Parameter
  operand : Option Parameter := none
  commands : List String := []

/-- The option that asks for help. -/
def helpOption : Parameter := ⟨"help", some 'h', .stop .help⟩

/-- What may stand in front of a command. -/
def globalGrammar : Grammar where
  options :=
    [⟨"config", some 'c', .path⟩, ⟨"output-json", none, .switch⟩, ⟨"log-format", none, .text⟩,
     ⟨"verbosity", none, .text⟩, helpOption, ⟨"version", some 'V', .stop .version⟩]
  commands := ["detach", "check", "stats", "help"]

/-- What may stand behind the command that detaches. -/
def detachGrammar : Grammar where
  options :=
    [⟨"source", some 's', .path⟩, ⟨"output", some 'o', .path⟩,
     ⟨"format", none, .choice ["json", "yaml"]⟩, helpOption]

/-- What may stand behind a command for a snapshot file. -/
def fileGrammar : Grammar where
  options := [helpOption]
  operand := some ⟨"path", none, .path⟩

/-! ### Reading -/

/-- How far arguments have been read. -/
structure State where
  /-- The values that have been given, by the names of their parameters. -/
  given : List (String × String) := []
  /-- The last parameter, whose value may still be missing. -/
  pending : Option (Parameter × Option String) := none
  /-- Whether all further arguments are operands. -/
  onlyOperands : Bool := false

/-- Whether a value is possible for a parameter. -/
def Kind.accepts : Kind → String → Bool
  | .path, value => value ≠ ""
  | .choice words, value => words.contains value
  | .switch, _ | .text, _ | .stop _, _ => true

/-- Notes the value of a parameter, which may be given once. -/
def State.give (s : State) (p : Parameter) (value : String) : Except Stop State :=
  if (s.given.lookup p.name).isSome || !p.kind.accepts value then .error .mistake
  else .ok { s with given := (p.name, value) :: s.given }

/-- Notes the value of the last parameter. -/
def State.settle (s : State) : Except Stop State :=
  match s.pending with
  | none => .ok s
  | some (p, some value) => { s with pending := none }.give p value
  | some (_, none) => .error .mistake

/-- Whether the next argument is the value of the last parameter. -/
def State.waits (s : State) : Bool :=
  match s.pending with
  | some (_, none) => !s.onlyOperands
  | _ => false

/-- Notes an option and the value in the same argument, if there is one. -/
def State.option (s : State) (p : Parameter) (attached : Option String) : Except Stop State := do
  match p.kind, attached with
  | .switch, none => (← s.settle).give p ""
  | .stop stop, none =>
    discard s.settle
    throw stop
  | .switch, some _ | .stop _, some _ => throw .mistake
  | _, some value => (← s.settle).give p value
  | _, none => return { ← s.settle with pending := some (p, none) }

/-- Reads the letters of an argument.  What is behind an option with a value is the value. -/
def letters (g : Grammar) : State → List Char → Except Stop State
  | s, [] => .ok s
  | s, c :: cs => do
    match g.options.find? (·.letter = some c) with
    | none => throw .mistake
    | some p =>
      match p.kind with
      | .switch | .stop _ => letters g (← s.option p none) cs
      | _ =>
        match cs with
        | [] => s.option p none
        | '=' :: value => s.option p (some (String.ofList value))
        | value => s.option p (some (String.ofList value))

/-- Reads an argument that starts with a dash. -/
def dashed (g : Grammar) (s : State) (arg : List Char) : Except Stop State :=
  match arg with
  | '-' :: '-' :: rest =>
    let (name, value) := rest.span (· ≠ '=')
    match g.options.find? (·.name.toList = name) with
    | none => .error .mistake
    | some p => s.option p (if value.isEmpty then none else some (String.ofList (value.drop 1)))
  | _ => letters g s (arg.drop 1)

/-- Reads an argument that is a value or an operand. -/
def undashed (g : Grammar) (s : State) (arg : String) : Except Stop State := do
  match s.pending with
  | some (p, none) =>
    if s.waits then return { s with pending := some (p, some arg) }
  | _ => pure ()
  match g.operand with
  | none => throw .mistake
  | some p => return { ← s.settle with pending := some (p, some arg) }

/-- Reads arguments up to the name of a command, and gives that name with the arguments behind
it. -/
def scan (g : Grammar) : State → List String → Except Stop (State × Option (String × List String))
  | s, [] => .ok (s, none)
  | s, arg :: args => do
    if s.onlyOperands then scan g (← undashed g s arg) args
    else if !s.waits && g.commands.contains arg then return (s, some (arg, args))
    else if arg = "--" then scan g { s with onlyOperands := true } args
    else if arg.startsWith "-" && arg ≠ "-" then scan g (← dashed g s arg.toList) args
    else scan g (← undashed g s arg) args

/-- Reads the arguments behind a command, which has no commands of its own. -/
def values (g : Grammar) (args : List String) : Except Stop (List (String × String)) := do
  return (← (← scan g {} args).1.settle).given

/-- The format with a name. -/
def format? (name : String) : Option Format :=
  if name = "json" then some .json else if name = "yaml" then some .yaml else none

/-- Reads a command with its arguments. -/
def readCommand (name : String) (args : List String) : Except Stop Command := do
  match name with
  | "detach" =>
    let given ← values detachGrammar args
    return .detach (given.lookup "source") (given.lookup "output")
      ((given.lookup "format").bind format?)
  | "help" =>
    match args with
    | [] => throw .help
    | [name] => throw (if globalGrammar.commands.contains name then .help else .mistake)
    | _ => throw .mistake
  | name =>
    match (← values fileGrammar args).lookup "path" with
    | none => throw .mistake
    | some path => return if name = "check" then .check path else .stats path

/-- Reads the arguments of the program. -/
def read (args : List String) : Except Stop Arguments := do
  match ← scan globalGrammar {} args with
  | (_, none) => throw .mistake
  | (s, some (name, rest)) =>
    let command ← readCommand name rest
    let given := (← s.settle).given
    return {
      settings := given.lookup "config"
      asJson := (given.lookup "output-json").isSome
      logFormat := if given.lookup "log-format" = some "json" then .json else .text
      verbosity := (given.lookup "verbosity").getD "info"
      command }

/-- The least severity that is told, by its name in upper or lower case. -/
def severity (a : Arguments) : Severity :=
  match a.verbosity.toLower with
  | "debug" => .debug
  | "warn" => .warning
  | "error" => .error
  | _ => .info

/-- The action that the arguments ask for. -/
def run (a : Arguments) : Action Unit := a.command.run a.settings a.asJson

end Arguments

/-- The name and version of the program. -/
def versionText : String := "schema-snapshot 0.1.0"

end DetachedSchema
