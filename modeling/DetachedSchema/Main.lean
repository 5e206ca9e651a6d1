import DetachedSchema.Arguments
import Std.Time.DateTime.Timestamp

/-!
# The program

Performs the action that the arguments ask for on the files of the system.
-/

namespace DetachedSchema

/-- The problem that an error of the system stands for. -/
def FileProblem.ofError : IO.Error → FileProblem
  | .noFileOrDirectory .. | .noSuchThing .. => .notFound
  | e =>
    let message := toString e
    if (message.splitOn "(error code: 20)").length > 1 then .notDirectory
    else if (message.splitOn "(error code: 21)").length > 1 then .isDirectory
    else if (message.splitOn "(error code: 36)").length > 1 then .nameTooLong
    else .stated message

/-- The text of a file. -/
def readText (path : String) : IO (Except FileProblem String) := do
  try
    match String.fromUTF8? (← IO.FS.readBinFile path) with
    | some text => return .ok text
    | none => return .error .notText
  catch e => return .error (.ofError e)

/-- Writes a text to a file. -/
def writeText (path text : String) : IO (Except FileProblem Unit) := do
  try return .ok (← IO.FS.writeFile path text)
  catch e => return .error (.ofError e)

/-- The time of the system. -/
def systemTime : IO Timestamp := do
  return .ofNanoseconds (← Std.Time.Timestamp.now).toNanosecondsSinceUnixEpoch.toInt

/-- The name of a severity in front of what is told. -/
def Severity.label : Severity → String
  | .debug => "DEBUG"
  | .info => "INFO"
  | .warning => "WARN"
  | .error => "ERROR"

/-- Tells an event on a line of the log. -/
def tellEvent (format : LogFormat) (event : Event) : IO Unit := do
  let time := (← systemTime).text
  let label := event.severity.label
  let message := event.logged format
  match format with
  | .text => IO.eprintln s!"{time} {label} {message}"
  | .json =>
    IO.eprintln (Json.print false (.record
      [("timestamp", .text time), ("level", .text label),
       ("fields", .record [("message", .text message)])]))

/-- Performs an action on the files of the system, telling the events that `tells` lets through. -/
def Action.performIO {α : Type} (tells : Event → Bool) (format : LogFormat) :
    Action α → IO (Except Fault α)
  | .done a => return .ok a
  | .fail fault => return .error fault
  | .read path next => do
    match ← readText path with
    | .ok text => (next text).performIO tells format
    | .error problem => return .error (.file problem)
  | .write path text next => do
    match ← writeText path text with
    | .ok _ => next.performIO tells format
    | .error problem => return .error (.file problem)
  | .print text next => do
    IO.print text
    next.performIO tells format
  | .tell event next => do
    if tells event then tellEvent format event
    next.performIO tells format
  | .now next => do (next (← systemTime)).performIO tells format

/-- How the program is used. -/
def usageText : String := "\n".intercalate
  ["Usage: schema-snapshot [--config FILE] [--output-json] [--log-format text|json]",
   "                       [--verbosity debug|info|warn|error] COMMAND",
   "Commands:",
   "  detach [--source FILE] [--output FILE] [--format json|yaml]",
   "  check FILE",
   "  stats FILE"]

/-- Does what the arguments ask for and gives the exit code. -/
def runProgram (args : List String) : IO UInt32 := do
  match Arguments.read args with
  | .error .help =>
    IO.println usageText
    return 0
  | .error .version =>
    IO.println versionText
    return 0
  | .error .mistake =>
    IO.eprintln usageText
    return 2
  | .ok a =>
    let tells (event : Event) : Bool := a.severity.rank ≤ event.severity.rank
    match ← a.run.performIO tells a.logFormat with
    | .ok _ => return 0
    | .error fault =>
      IO.eprintln fault.report
      return fault.exitCode.toUInt32

end DetachedSchema

/-- The program. -/
def main (args : List String) : IO UInt32 := DetachedSchema.runProgram args
