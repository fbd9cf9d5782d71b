import Seamark.Color.Token
import Seamark.Timeline.Basic

/-!
# Coloured bars

A segment is shown in a terminal as a bar of spaces on a coloured ground: black while dark, otherwise
the colour of its token dimmed to its brightness. A value that is no colour is shown white.
-/

namespace Seamark.Color

variable {α : Type} [Scalar α]

/-- The colour that a lit segment is drawn in before it is dimmed. -/
def drawn (table : Table String) (token : String) : Except ColorError (Hsv α) :=
  match ofValue (resolve table "white" token) with
  | .error (.invalidHex _) | .error (.unknownName _) => ofValue "white"
  | other => other

/-- The integer part of a channel out of 255. -/
def channelPart (x : α) : Except ColorError Int :=
  match Scalar.truncate (x * 255.0) with
  | .ok n => .ok n
  | .error cause => .error (.noChannel cause)

/-- The channel numbers of a segment's bar. -/
def barChannels (table : Table String) (s : Segment α) : Except ColorError (Int × Int × Int) :=
  if s.lit then do
    let color ← drawn table s.color
    let rgb ← (color.dim s.level).toRgb
    return (← channelPart rgb.red, ← channelPart rgb.green, ← channelPart rgb.blue)
  else .ok (0, 0, 0)

/-- The width of a bar. -/
def barWidth : Nat := 20

/-- The bar of a segment, with the sequences that switch the ground on and off. -/
def bar (table : Table String) (s : Segment α) : Except ColorError String := do
  let (red, green, blue) ← barChannels table s
  return "\x1b[48;2;" ++ toString red ++ ";" ++ toString green ++ ";" ++ toString blue ++ "m"
    ++ "".pushn ' ' barWidth ++ "\x1b[0m"

end Seamark.Color
