import Seamark.Compiler.Basic

/-!
# Occulting lights

The cycle is cut into equal slots: one for every count of every group and one more after each group.
A counted slot is lit for a quarter and then dark; the slot after a group is dark.
-/

namespace Seamark.Compiler

variable {α : Type} [Scalar α]

/-- The share of a slot during which the light is on. -/
def occultingShare : α := 0.25

/-- The counted slots of the groups, each group but the last followed by its dark slot, and the last
one too if asked. -/
def occultingGroups (slot on : α) (color : String) (closed : Bool) : List Nat → Timeline α
  | [] => []
  | [count] =>
    repeated count (light on color ++ dark (slot - on) color) ++ if closed then dark slot color else []
  | count :: counts =>
    repeated count (light on color ++ dark (slot - on) color) ++ dark slot color
      ++ occultingGroups slot on color closed counts

/-- Occulting and group occulting lights. -/
def occulting (s : Setup α) : Except CompileError (Timeline α) := do
  let color ← s.firstColor
  let counts ← s.counts
  let slot := s.safePeriod / (← countNumber (addedUp counts + counts.length))
  let on := slot * occultingShare
  let shown := occultingGroups slot on color (counts.length == 1 && s.isGrouped) counts
  let used := shown.total
  return shown ++ if used < s.safePeriod then dark (s.safePeriod - used) color else []

end Seamark.Compiler
