import Seamark.Compiler.Compile
import Seamark.Config

/-!
# Sessions

A session has a shared Morse table, a standard compiler and compilers that are made on the way.
Codes can be registered in the shared table at any time; a compiler without its own table sees them,
one with a table, or made from a configuration, does not.
-/

namespace Seamark

/-- What a session remembers. -/
structure Session where
  /-- The shared Morse table. -/
  shared : Table String := Morse.builtin
  /-- The compilers by name. -/
  compilers : Table (Compiler Float) := {}

/-- What can be done in a session. -/
inductive Session.Step where
  /-- Register the code of a character in the shared table. -/
  | register (character code : String)
  /-- Look a character up, in the shared table or in another one. -/
  | lookup (character : String) (table : Option (Table String))
  /-- List the registered characters. -/
  | characters
  /-- Make a compiler. -/
  | make (name : String) (compiler : Compiler Float)
  /-- Make a compiler from a configuration. -/
  | configure (name : String) (config : Config)
  /-- Take the rule of a type from a compiler. -/
  | dropRule (name : String) (type : LightType)
  /-- Compile a text with a compiler, or with the standard one. -/
  | compile (name : Option String) (text : Option String)

/-- What a step of a session answers. -/
inductive Session.Answer where
  /-- Nothing. -/
  | nothing
  /-- A code. -/
  | code (text : String)
  /-- Characters. -/
  | characters (list : List String)
  /-- A timeline. -/
  | timeline (ts : Timeline Float)

/-- Why a step of a session fails. -/
inductive Session.Error where
  /-- There is no compiler of this name. -/
  | noCompiler
  /-- The compiler has no rule for this type. -/
  | noRule
  /-- The characteristic has no timeline. -/
  | compile (cause : CompileError)
deriving DecidableEq, Repr

/-- Takes the rule of a type from a compiler, if it has one. -/
def Compiler.dropRule {α : Type} (c : Compiler α) (type : LightType) : Option (Compiler α) :=
  if type ∈ c.withoutRule then none else some { c with withoutRule := type :: c.withoutRule }

namespace Session

/-- The compiler of a name, or the standard one. -/
def compilerFor (s : Session) : Option String → Option (Compiler Float)
  | none => some Compiler.standard
  | some name => s.compilers.get? name

/-- The timeline of a text, or of something that is no text and so no characteristic. -/
def timelineOf (s : Session) (compiler : Compiler Float) (text : Option String) :
    Except CompileError (Timeline Float) :=
  match text with
  | none => .ok []
  | some text => compiler.compileText s.shared text

/-- One step: the answer, and what the session remembers afterwards. -/
def step (s : Session) : Step → Except Error Answer × Session
  | .register character code =>
    (.ok .nothing, { s with shared := s.shared.set character code })
  | .lookup character table =>
    (.ok (.code (Morse.lookup (table.getD s.shared) character)), s)
  | .characters => (.ok (.characters s.shared.keys), s)
  | .make name compiler =>
    (.ok .nothing, { s with compilers := s.compilers.set name compiler })
  | .configure name config =>
    (.ok .nothing, { s with compilers := s.compilers.set name (config.compiler s.shared) })
  | .dropRule name type =>
    match s.compilers.get? name with
    | none => (.error .noCompiler, s)
    | some compiler =>
      match compiler.dropRule type with
      | none => (.error .noRule, s)
      | some compiler => (.ok .nothing, { s with compilers := s.compilers.set name compiler })
  | .compile name text =>
    match s.compilerFor name with
    | none => (.error .noCompiler, s)
    | some compiler =>
      match s.timelineOf compiler text with
      | .ok ts => (.ok (.timeline ts), s)
      | .error cause => (.error (.compile cause), s)

/-- The answers of steps taken one after the other. -/
def run (s : Session) : List Step → List (Except Error Answer)
  | [] => []
  | first :: rest => (s.step first).1 :: run (s.step first).2 rest

end Session

end Seamark
