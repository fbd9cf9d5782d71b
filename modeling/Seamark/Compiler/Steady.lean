import Seamark.Compiler.Basic

/-!
# Steady, isophase and long lights

The rules that cut a cycle into a few pieces in set proportions: steady lights share it among their
colours, isophase lights halve it, long flashes take four fifths, and a fixed light with flashes is
bright for a tenth and dim for the rest.
-/

namespace Seamark.Compiler

variable {α : Type} [Scalar α]

/-- The share of a cycle that a long flash takes. -/
def longFlashShare : α := 0.8

/-- The share of a cycle that the flash of a fixed and flashing light takes. -/
def fixedFlashShare : α := 0.1

/-- The brightness of a fixed and flashing light between its flashes. -/
def backgroundIntensity : α := 0.4

/-- How long a steady light stays in each of its colours. -/
def colorTime (compiler : Compiler α) (s : Setup α) : Except CompileError α :=
  if s.isContinuous then .ok compiler.dwell
  else if s.subject.colors.isEmpty then .error .noColorToShare
  else return s.safePeriod / (← countNumber s.subject.colors.length)

/-- Every colour in turn for the same time, never dark. -/
def steady (compiler : Compiler α) (s : Setup α) : Except CompileError (Timeline α) := do
  let duration ← colorTime compiler s
  return s.subject.colors.flatMap (light duration)

/-- One long flash and the rest of the cycle dark. -/
def longFlashing (s : Setup α) : Except CompileError (Timeline α) := do
  let color ← s.firstColor
  let on := s.safePeriod * longFlashShare
  return light on color ++ dark (s.safePeriod - on) color

/-- Half of the cycle lit and half dark. -/
def isophase (s : Setup α) : Except CompileError (Timeline α) := do
  let color ← s.firstColor
  let half := s.safePeriod / 2.0
  return light half color ++ dark (s.safePeriod - half) color

/-- A bright flash, then dim light for the rest of the cycle. -/
def fixedFlashing (s : Setup α) : Except CompileError (Timeline α) := do
  let color ← s.firstColor
  let flash := s.safePeriod * fixedFlashShare
  return light flash color ++ emit true (s.safePeriod - flash) color backgroundIntensity

end Seamark.Compiler
