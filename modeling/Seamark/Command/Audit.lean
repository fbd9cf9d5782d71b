import Seamark.Catalog.Audit
import Seamark.Catalog.Reading
import Seamark.Command.Outcome

/-!
# The audit command

The command takes one argument, the file of a catalogue, and prints the audit of its lights. Any
trouble with the catalogue but a missing file leaves it unreported.
-/

namespace Seamark.Command

/-- The outcome of auditing the catalogue of a path. -/
def auditDocument (path : String) (document : Except FileError Value) : Outcome Float :=
  match document with
  | .error .missing | .error .notDirectory | .error .nullCharacter | .error (.halfCharacters ..) =>
    .ofLines ["Error: catalog not found: " ++ path] 1
  | .error cause => ⟨[], .unreported (.file path cause)⟩
  | .ok value =>
    let outcome := Catalog.read value
    let warnings := outcome.warnings
    match outcome.result with
    | .error cause => ⟨Outcome.chunksOf warnings, .unreported (.catalog cause)⟩
    | .ok lights =>
      .ofLines (warnings ++ Catalog.auditLines lights)
        (if (Catalog.unreadable lights).isEmpty then 0 else 1)

/-- Runs the audit under a name on its command line. -/
def audit {m : Type → Type} [Monad m] (fetch : Fetch m) (name : String) :
    List String → m (Outcome Float)
  | [file] => do
    let path := Path.normal file
    return auditDocument path (← fetch path)
  | _ => return .ofLines ["Usage: " ++ name ++ " CATALOG.yaml"] 2

end Seamark.Command
