import Seamark.LightType

/-!
# Light characteristics

A characteristic says how a light looks: its type, the group in parentheses, its colours in order,
and the length of its cycle.
-/

namespace Seamark

/-- What the chart says about a light. -/
structure Characteristic (α : Type) where
  /-- The type of the light. -/
  type : LightType
  /-- The text between the parentheses. -/
  group : Option String
  /-- The colour tokens; colours are given to groups in this order. -/
  colors : List String
  /-- The length of the cycle in seconds. -/
  period : Option α
deriving DecidableEq, Repr

namespace Characteristic

/-- The same characteristic with its period measured in other numbers. -/
def map {α β : Type} (f : α → β) (c : Characteristic α) : Characteristic β :=
  { type := c.type, group := c.group, colors := c.colors, period := c.period.map f }

end Characteristic

/-- The canonical spelling of a colour token: capitals, except that amber is `Am`. -/
def canonicalColor (token : String) : String :=
  let capitals := Text.upper token
  if capitals = "AM" then "Am" else capitals

end Seamark
