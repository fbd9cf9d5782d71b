import Seamark.Compiler.Basic

/-!
# Morse lights

A character is sent in units: one for a dot, three for a dash, each followed by one dark unit, and
seven dark units between two characters. The unit is what makes the cycle last its period, but never
too short to be seen.
-/

namespace Seamark.Compiler

variable {α : Type} [Scalar α]

/-- The shortest unit. -/
def minUnit : α := 0.05

/-- The dark units after a character, on top of the one after its last symbol. -/
def trailingUnits : Nat := 6

/-- The lit units of a symbol; other characters of a code are passed over. -/
def symbolUnits? : Char → Option Nat
  | '.' => some 1
  | '-' => some 3
  | _ => none

/-- The lit units of each symbol of a code. -/
def codeUnits (code : String) : List Nat :=
  code.toList.filterMap symbolUnits?

/-- The character that a light sends: the text of its group, or the default one. -/
def sentCharacter (compiler : Compiler α) (s : Setup α) : String :=
  let named := Text.trim (s.subject.group.getD "").toList
  if named.isEmpty then compiler.defaultCharacter else String.ofList named

/-- A number of units as a time. -/
def unitsTime (unit : α) (n : Nat) : α := Scalar.ofInt n * unit

/-- The segments of a code, each symbol with the dark unit after it. -/
def symbolSegments (unit : α) (color : String) (symbols : List Nat) : Timeline α :=
  symbols.flatMap fun n => light (unitsTime unit n) color ++ dark (unitsTime unit 1) color

/-- The timeline with its last segment made longer. -/
def stretchLast (extra : α) : Timeline α → Timeline α
  | [] => []
  | [s] => [{ s with duration := s.duration + extra }]
  | s :: ts => s :: stretchLast extra ts

/-- Ends a cycle with the time that is left: a segment of its own if it can be seen or nothing else
is shown, otherwise a longer last gap. -/
def closeCycle (left : α) (color : String) (shown : Timeline α) : Timeline α :=
  if minUnit ≤ left ∨ shown.isEmpty = true then shown ++ dark left color
  else if shortest < left then stretchLast left shown
  else shown

/-- A Morse light, with the dots and dashes of a table. -/
def morse (compiler : Compiler α) (table : Table String) (s : Setup α) :
    Except CompileError (Timeline α) := do
  let color ← s.firstColor
  let symbols := codeUnits (Morse.lookup table (sentCharacter compiler s))
  let units := addedUp symbols + symbols.length
  let unit := greater minUnit (s.safePeriod / (← countNumber (units + trailingUnits)))
  return closeCycle (s.safePeriod - unitsTime unit units) color (symbolSegments unit color symbols)

end Seamark.Compiler
