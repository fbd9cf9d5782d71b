import Seamark.Command.Audit
import Seamark.Command.Run

/-!
# The program

Reads the files that a command asks for, prints its outcome at the pace of its clock and ends with its
status. The program audits a catalogue when it is started under a name that begins with `audit`.
-/

namespace Seamark.Main

/-- How to call the program. -/
def usage : String :=
  "usage: seamark [-h] [--config CONFIG] [--catalog CATALOG] [--play SECONDS] [--json] [code]"

/-- What the arguments of the program mean. -/
def help : String :=
  "\n".intercalate [usage, "",
    "Compile and play aid-to-navigation light characteristics", "",
    "  code               Light characteristic, e.g. \"Fl(2+1) W G 10s\"",
    "  -h, --help         show this help message and exit",
    "  --config CONFIG    YAML config with color/Morse overrides",
    "  --catalog CATALOG  List lights from a catalog YAML instead of a single code",
    "  --play SECONDS     Play the timeline in the terminal for SECONDS",
    "  --json             Print the descriptor and timeline as JSON"]

/-- The trouble with a file that cannot be read, if it is one that commands know. -/
def fileError? : IO.Error → Option FileError
  | .noFileOrDirectory .. => some .missing
  | .inappropriateType _ code _ =>
    some (if code = 21 then .isDirectory else .notDirectory)
  | _ => none

/-- Reads the document of a file. -/
def fetch (path : String) : IO (Except FileError Value) := do
  if let some cause := Path.fault? path then return .error cause
  let some name := Text.chars? path | return .error .missing
  try
    match Document.read (← IO.FS.readFile (String.ofList name)) with
    | .ok document => return .ok document
    | .error cause => return .error (.unreadable cause)
  catch e =>
    match fileError? e with
    | some cause => return .error cause
    | none => throw e

/-- The text that is printed for a text: a half of a character cannot be shown. -/
def shown (s : String) : String :=
  String.ofList ((Text.letters s).map fun
    | .char c => c
    | .half _ => '\ufffd')

/-- Prints texts, each when its time has come. -/
def printFrom (out : IO.FS.Stream) : Float → List (Command.Chunk Float) → IO Unit
  | _, [] => pure ()
  | now, chunk :: chunks => do
    if now < chunk.time then
      IO.sleep ((chunk.time - now) * 1000.0).toUInt32
    out.putStr (shown chunk.text)
    out.flush
    printFrom out (greater now chunk.time) chunks

/-- Prints an outcome and gives the status to end with. -/
def finish (outcome : Command.Outcome Float) : IO UInt32 := do
  printFrom (← IO.getStdout) 0.0 outcome.printed
  match outcome.ending with
  | .status code => return code.toUInt32
  | .usage code =>
    if code = 0 then IO.println help else IO.eprintln usage
    return code.toUInt32
  | .unreported trouble =>
    IO.eprintln (shown trouble.message)
    return 1

end Seamark.Main

/-- Runs the command, or the audit if the name of the program asks for it. -/
def main (args : List String) : IO UInt32 := do
  let name := ((← IO.appPath).fileName).getD ""
  let args := args.map fun arg => Seamark.Text.ofChars arg.toList
  if name.startsWith "audit" then
    Seamark.Main.finish (← Seamark.Command.audit Seamark.Main.fetch name args)
  else
    Seamark.Main.finish (← Seamark.Command.run Seamark.Main.fetch none args .system)
