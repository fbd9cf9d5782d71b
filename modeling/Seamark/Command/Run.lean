import Seamark.Catalog.Reading
import Seamark.Command.Arguments
import Seamark.Command.Play
import Seamark.Report.Timeline

/-!
# Running the command

With a notation, the command reports its timeline or plays it; without one, it lists a catalogue. The
configuration is read first, then the catalogue, so a trouble with the one hides a trouble with the
other. Files are asked for by their paths, so the command is a value for every way of finding them.
-/

namespace Seamark.Command

/-- The configuration of a file, or the standard one if no file is named. -/
def configure {m : Type → Type} [Monad m] (fetch : Fetch m) :
    Option String → m (Except Trouble Config)
  | none => return .ok {}
  | some file => do
    let path := Path.normal file
    return match ← fetch path with
      | .error cause => .error (.file path cause)
      | .ok document =>
        match Config.read path document with
        | .error cause => .error (.config cause)
        | .ok config => .ok config

/-- The path of the catalogue: the one of the arguments, else the one of the configuration, if one is
given. -/
def catalogPath (args : Arguments) (config : Config) : Except Trouble (Option String) :=
  match args.catalog, config.catalog.given? with
  | some file, _ => .ok (some (Path.normal file))
  | none, none => .ok none
  | none, some (.text file) => .ok (some (Path.normal file))
  | none, some _ => .error .catalogNotNamed

/-- The outcome of listing a catalogue. -/
def list (compiler : Compiler Float) (path : String) (document : Except FileError Value) :
    Outcome Float :=
  match document with
  | .error cause => .troubled [] (.file path cause)
  | .ok value =>
    let outcome := Catalog.read value
    let warnings := Outcome.chunksOf outcome.warnings
    match outcome.result with
    | .error cause => .troubled warnings (.catalog cause)
    | .ok lights =>
      let listing := Catalog.listing compiler Morse.builtin path lights
      let printed := warnings ++ Outcome.chunksOf listing.lines
      match listing.trouble with
      | some cause => .troubled printed (.listing cause)
      | none => ⟨printed, .status 0⟩

/-- The outcome of reporting the timeline of a notation. -/
def report (compiler : Compiler Float) (code : String) (json : Bool) : Outcome Float :=
  match Characteristic.read? code with
  | none => .troubled [] (.unparsed code)
  | some c =>
    match compiler.compile Morse.builtin (some c) with
    | .error cause => .troubled [] (.compile cause)
    | .ok ts =>
      .ofLines (if json then [(Report.json c ts).render 0] else Report.lines code c ts) 0

/-- The outcome of playing a notation. -/
def playCode (compiler : Compiler Float) (table : Table String) (code : String) (seconds : Float)
    (interruption : Option Float) (clock : Clock Float := .counted) : Outcome Float :=
  match compiler.compileText Morse.builtin code with
  | .error cause => .troubled [] (.compile cause)
  | .ok [] => .troubled [] (.unparsed code)
  | .ok ts => play table code ts seconds interruption clock

/-- The outcome of what is asked for a notation: to play it for a time that is not zero, else to report
its timeline. -/
def present (args : Arguments) (config : Config) (code : String) (interruption : Option Float)
    (clock : Clock Float := .counted) : Outcome Float :=
  let compiler := config.compiler Morse.builtin
  match args.play with
  | some seconds =>
    if isZero seconds then report compiler code args.json
    else playCode compiler config.colorTable code seconds interruption clock
  | none => report compiler code args.json

/-- The outcome of the command for its arguments. -/
def execute {m : Type → Type} [Monad m] (fetch : Fetch m) (interruption : Option Float)
    (args : Arguments) (clock : Clock Float := .counted) : m (Outcome Float) := do
  match ← configure fetch args.config with
  | .error trouble => return .troubled [] trouble
  | .ok config =>
    match catalogPath args config, args.code with
    | .error trouble, _ => return .troubled [] trouble
    | .ok _, some code => return present args config code interruption clock
    | .ok (some path), none => return list (config.compiler Morse.builtin) path (← fetch path)
    | .ok none, none => return ⟨[], .usage 2⟩

/-- Runs the command on its command line. -/
def run {m : Type → Type} [Monad m] (fetch : Fetch m) (interruption : Option Float)
    (line : List String) (clock : Clock Float := .counted) : m (Outcome Float) :=
  match Arguments.read line with
  | .error .help => return ⟨[], .usage 0⟩
  | .error .misuse => return ⟨[], .usage 2⟩
  | .ok args => execute fetch interruption args clock

end Seamark.Command
