import Seamark.Compiler.Alternating
import Seamark.Compiler.Flashing
import Seamark.Compiler.Morse
import Seamark.Compiler.Steady

/-!
# Compiling a characteristic

Each type has its rule. A type whose rule a compiler lacks becomes one steady segment in the first
colour. What is no characteristic has the empty timeline.
-/

namespace Seamark.Compiler

variable {α : Type} [Scalar α]

/-- The Morse table that a compiler uses when the shared one is given. -/
def tableWith (compiler : Compiler α) (shared : Table String) : Table String :=
  compiler.table.getD shared

/-- The timeline of a characteristic by the rule of its type. -/
def applyRule (compiler : Compiler α) (table : Table String) (s : Setup α) :
    Except CompileError (Timeline α) :=
  match s.subject.type with
  | .fixed | .directional | .directionalFixed => steady compiler s
  | .flashing | .groupFlashing => flashing s
  | .longFlashing => longFlashing s
  | .quick | .veryQuick | .ultraQuick => quick s
  | .interruptedQuick => interruptedQuick s
  | .occulting | .groupOcculting => occulting s
  | .isophase => isophase s
  | .alternating | .alternatingFlashing | .alternatingOcculting | .alternatingIsophase =>
    alternating s
  | .fixedAndFlashing | .flashingFixed => fixedFlashing s
  | .morse => morse compiler table s

/-- One steady segment in the first colour, however short. -/
def withoutTiming (s : Setup α) : Except CompileError (Timeline α) := do
  return [⟨true, s.safePeriod, ← s.firstColor, 1.0⟩]

/-- The timeline of a characteristic, with the shared Morse table for a compiler without its own. -/
def compile (compiler : Compiler α) (shared : Table String) :
    Option (Characteristic α) → Except CompileError (Timeline α)
  | none => .ok []
  | some c =>
    let s := Setup.of compiler c
    if c.type ∈ compiler.withoutRule then withoutTiming s
    else applyRule compiler (compiler.tableWith shared) s

/-- The timeline of a text; empty if the text is no characteristic. -/
def compileText (compiler : Compiler α) (shared : Table String) (text : String) :
    Except CompileError (Timeline α) :=
  compiler.compile shared (Characteristic.read? text)

end Seamark.Compiler
