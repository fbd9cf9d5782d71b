import Seamark.Compiler.Basic

/-!
# Quick lights

Flashes at an even rate of one, two or four a second. Without a group they go on for ever, so one
flash is the whole cycle; with a group they stop after its first count until the period is over, or
for four flashes if there is no period. Interrupted quick lights always stop.
-/

namespace Seamark.Compiler

variable {α : Type} [Scalar α]

/-- The longest flash. -/
def maxFlash : α := 0.3

/-- The share of its beat that a quick flash takes. -/
def quickShare : α := 0.6

/-- The number of beats that a break lasts when the period does not set it. -/
def breakBeats : α := 4.0

/-- The flashes of an interrupted light whose group does not count them. -/
def interruptedFlashes : Nat := 9

/-- The time from one flash to the next. -/
def quickBeat : LightType → α
  | .veryQuick => 0.5
  | .ultraQuick => 0.25
  | _ => 1.0

/-- One flash and the darkness after it. -/
def quickFlash (beat on : α) (color : String) : Timeline α :=
  light on color ++ dark (beat - on) color

/-- Quick, very quick and ultra quick lights. -/
def quick (s : Setup α) : Except CompileError (Timeline α) := do
  let color ← s.firstColor
  let beat := quickBeat s.subject.type
  let flash := quickFlash beat (lesser maxFlash (beat * quickShare)) color
  if !s.isGrouped then return flash
  let count := (← s.counts).headD 1
  let pause ← match s.period with
    | some p => do pure (greater 0.0 (p - (← countNumber count) * beat))
    | none => pure (beat * breakBeats)
  return repeated count flash ++ dark pause color

/-- Interrupted quick lights. -/
def interruptedQuick (s : Setup α) : Except CompileError (Timeline α) := do
  let color ← s.firstColor
  let count ← if s.isGrouped then do pure ((← s.counts).headD 1) else pure interruptedFlashes
  let beat : α := 1.0
  let used := (← countNumber count) * beat
  let pause := match s.period with
    | some p => if used < p then p - used else beat * breakBeats
    | none => beat * breakBeats
  return repeated count (quickFlash beat (beat * quickShare) color) ++ dark pause color

end Seamark.Compiler
