import Seamark.Compiler.Basic

/-!
# Flashing lights

Flashes come in groups: short gaps within a group, a longer one between two groups. The pattern has a
weight for each piece, in seconds; if it is longer than the period all its pieces are shortened by
the same factor, and if it is shorter the rest of the period is dark. Groups take the colours in
turn, and darkness counts as the first colour. A single flash of several colours shows them at once.
-/

namespace Seamark.Compiler

variable {α : Type} [Scalar α]

/-- The weight of a flash. -/
def flashWeight : α := 0.3

/-- The weight of the gap between two flashes of a group. -/
def flashGapWeight : α := 0.7

/-- The weight of the gap between two groups. -/
def groupGapWeight : α := 2.0

/-- A piece of a flash pattern. -/
structure Beat (α : Type) where
  /-- A flash, not a gap. -/
  lit : Bool
  /-- The length before scaling. -/
  weight : α
  /-- The colour token. -/
  color : String
deriving DecidableEq, Repr

/-- The flashes of one group with the gaps between them. -/
def groupBeats (base color : String) (count : Nat) : List (Beat α) :=
  (List.replicate count (⟨true, flashWeight, color⟩ : Beat α)).intersperse ⟨false, flashGapWeight, base⟩

/-- The beats of the groups from a place on, with the gaps between the groups. -/
def patternFrom (base : String) (colors : List String) :
    Nat → List Nat → Except CompileError (List (Beat α))
  | _, [] => .ok []
  | place, [count] => do
    let color ← colorInTurn colors place
    return groupBeats base color count
  | place, count :: counts => do
    let color ← colorInTurn colors place
    let rest ← patternFrom base colors (place + 1) counts
    return groupBeats base color count ++ ⟨false, groupGapWeight, base⟩ :: rest

/-- One token for colours that are shown at once. -/
def composite (colors : List String) : String :=
  "/".intercalate colors

/-- The colours that the groups take in turn: the one composite colour if a flashing light has a
single flash of several colours. -/
def groupColors (s : Setup α) (counts : List Nat) : List String :=
  if s.subject.type = .flashing ∧ addedUp counts = 1 ∧ 1 < s.subject.colors.length then
    [composite s.subject.colors]
  else s.subject.colors

/-- The factor by which a pattern of some weight is shortened to fit the period. -/
def timeScale (period : Option α) (weight : α) : α :=
  match period with
  | none => 1.0
  | some p => if p < weight then p / weight else 1.0

/-- The darkness after a pattern that takes some time. -/
def restAfter (period : Option α) (used : α) (color : String) : Timeline α :=
  match period with
  | none => []
  | some p => if used < p then dark (p - used) color else []

/-- Groups of flashes. -/
def flashing (s : Setup α) : Except CompileError (Timeline α) := do
  let counts ← s.counts
  let base ← s.firstColor
  let beats ← patternFrom base (groupColors s counts) 0 counts
  let weight := sumOf (beats.map (·.weight))
  let scale := timeScale s.period weight
  let shown := beats.flatMap fun b => emit b.lit (b.weight * scale) b.color 1.0
  return shown ++ restAfter s.period (weight * scale) base

end Seamark.Compiler
