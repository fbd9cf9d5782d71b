import Seamark.Compiler.Occulting
import Seamark.Compiler.Quick

/-!
# Alternating lights

The cycle is cut into equal slots which take the colours in turn: a slot for each group if there are
several, otherwise one for each colour. Within its slot a light flashes, is eclipsed, or is on but
for short gaps, as often as the group counts.
-/

namespace Seamark.Compiler

variable {α : Type} [Scalar α]

/-- The shortest flash of an alternating light. -/
def minFlash : α := 0.05

/-- The gap between two flashes where there is room for it. -/
def alternatingFlashGap : α := 0.7

/-- The share of a beat during which an alternating light is off. -/
def alternatingGapShare : α := 0.1

/-- The longest gap of an alternating light. -/
def maxAlternatingGap : α := 0.2

/-- How a slot of an alternating light is filled. -/
inductive SlotStyle where
  /-- Flashes. -/
  | flashes
  /-- Eclipses. -/
  | eclipses
  /-- Light with short gaps. -/
  | gaps
deriving DecidableEq, Repr

/-- The style of the slots of a type. -/
def slotStyle : LightType → SlotStyle
  | .alternatingFlashing => .flashes
  | .alternatingOcculting => .eclipses
  | _ => .gaps

/-- The counts of the slots: those of the groups if there are several, else one for each colour. -/
def slotCounts (counts : List Nat) (colors : List String) : List Nat :=
  if 1 < counts.length then counts else colors.map fun _ => 1

/-- A slot with flashes. The flashes keep their length; the gaps shrink if there is no room for
them. -/
def flashSlot (slot : α) (color : String) (count : Nat) : Except CompileError (Timeline α) := do
  let n ← countNumber count
  let gaps ← countNumber (count - 1)
  let on := lesser maxFlash (greater minFlash (slot / n * quickShare))
  let wide := gaps * (on + alternatingFlashGap) + on
  let (gap, used) :=
    if slot < wide ∧ 1 < count then
      let gap := greater 0.0 ((slot - n * on) / gaps)
      (gap, gaps * gap + n * on)
    else (alternatingFlashGap, wide)
  return repeated (count - 1) (light on color ++ dark gap color)
    ++ light on color ++ dark (slot - used) color

/-- A slot with eclipses. -/
def eclipseSlot (slot : α) (color : String) (count : Nat) : Except CompileError (Timeline α) := do
  let beat := slot / (← countNumber count)
  let on := beat * occultingShare
  return repeated count (light on color ++ dark (beat - on) color)

/-- A slot of light with short gaps. -/
def gapSlot (slot : α) (color : String) (count : Nat) : Except CompileError (Timeline α) := do
  let beat := slot / (← countNumber count)
  let gap := lesser (beat * alternatingGapShare) maxAlternatingGap
  return repeated count (light (beat - gap) color ++ dark gap color)

/-- A slot in the given style. -/
def styledSlot : SlotStyle → α → String → Nat → Except CompileError (Timeline α)
  | .flashes => flashSlot
  | .eclipses => eclipseSlot
  | .gaps => gapSlot

/-- The slots from a place on, each in its colour. -/
def slotsFrom (style : SlotStyle) (slot : α) (colors : List String) :
    Nat → List Nat → Except CompileError (Timeline α)
  | _, [] => .ok []
  | place, count :: counts => do
    let color ← colorInTurn colors place
    let first ← styledSlot style slot color count
    let rest ← slotsFrom style slot colors (place + 1) counts
    return first ++ rest

/-- Alternating lights of all kinds. -/
def alternating (s : Setup α) : Except CompileError (Timeline α) := do
  let slots := slotCounts (← s.counts) s.subject.colors
  if slots.isEmpty then throw .noColorToShare
  let slot := s.safePeriod / (← countNumber slots.length)
  slotsFrom (slotStyle s.subject.type) slot s.subject.colors 0 slots

end Seamark.Compiler
