import Seamark.Scalar

/-!
# Timelines

A timeline is a list of segments, each lit or dark for a time, which a display plays in a loop. One
pass through it is a cycle.
-/

namespace Seamark

/-- One step of a timeline. -/
structure Segment (α : Type) where
  /-- The light is shown. -/
  lit : Bool
  /-- The length in seconds. -/
  duration : α
  /-- A colour token, or several joined by slashes. -/
  color : String
  /-- The brightness while lit. -/
  intensity : α
deriving DecidableEq, Repr

/-- Segments in the order in which they are shown. -/
abbrev Timeline (α : Type) := List (Segment α)

variable {α : Type} [Scalar α]

/-- The brightness shown: none while dark. -/
def Segment.level (s : Segment α) : α :=
  if s.lit then s.intensity else 0.0

/-- A segment in one line, its duration with three places. -/
def Segment.describe (s : Segment Float) : String :=
  "Segment(" ++ (if s.lit then "on" else "off") ++ ", " ++ fixedText 3 s.duration ++ "s, "
    ++ s.color ++ ", " ++ generalText s.intensity ++ ")"

namespace Timeline

/-- The length of a cycle. -/
def total (ts : Timeline α) : α :=
  sumOf (ts.map (·.duration))

/-- The first segment that ends after a position, when a time has passed before the first of them and
the first of them has the given index. -/
def locate? (position elapsed : α) (index : Nat) : Timeline α → Option (Nat × Segment α)
  | [] => none
  | s :: ts =>
    if position < elapsed + s.duration then some (index, s)
    else locate? position (elapsed + s.duration) (index + 1) ts

/-- The segment shown at a time since the start of the first cycle, with its index; none if there is
no segment. When the sums of durations round so that no segment ends after the time, it is the
last. -/
def activeAt? (ts : Timeline α) (time : α) : Option (Nat × Segment α) :=
  match ts.getLast? with
  | none => none
  | some last =>
    let cycle := total ts
    let position := if 0.0 < cycle then Scalar.modulo time cycle else 0.0
    some ((locate? position 0.0 0 ts).getD (ts.length - 1, last))

end Timeline

end Seamark
