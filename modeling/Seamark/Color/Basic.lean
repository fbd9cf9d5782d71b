import Seamark.Scalar

/-!
# Colours

A colour by hue, saturation and value, and the same colour by its red, green and blue channels. The
hue circle has six sectors; within each, one channel is the greatest, one is the least and one moves
from one to the other.
-/

namespace Seamark

/-- A colour by hue, saturation and value, each from 0 to 1. -/
structure Hsv (α : Type) where
  /-- The place on the colour circle. -/
  hue : α
  /-- How far the colour is from grey. -/
  saturation : α
  /-- How bright the colour is. -/
  value : α
deriving DecidableEq, Repr

/-- A colour by its channels, each from 0 to 1. -/
structure Rgb (α : Type) where
  /-- The red channel. -/
  red : α
  /-- The green channel. -/
  green : α
  /-- The blue channel. -/
  blue : α
deriving DecidableEq, Repr

/-- Why a text or a number gives no colour. -/
inductive ColorError where
  /-- The text is not a colour in hexadecimal digits. -/
  | invalidHex (text : String)
  /-- The text is not the name of a colour. -/
  | unknownName (text : String)
  /-- The greatest channel is zero although the channels differ. -/
  | noBrightestChannel
  /-- A channel has no integer part. -/
  | noChannel (cause : NoInteger)
deriving DecidableEq, Repr

/-- The text of an error. -/
def ColorError.message : ColorError → String
  | invalidHex text => "Invalid hex color: " ++ text
  | unknownName text => "Unknown color name: " ++ text
  | noBrightestChannel => "float division by zero"
  | noChannel .notANumber => "cannot convert float NaN to integer"
  | noChannel .infinite => "cannot convert float infinity to integer"

variable {α : Type} [Scalar α]

/-- The channels of a colour. -/
def Hsv.toRgb (c : Hsv α) : Except ColorError (Rgb α) :=
  if isZero c.saturation then .ok ⟨c.value, c.value, c.value⟩
  else
    match Scalar.truncate (c.hue * 6.0) with
    | .error cause => .error (.noChannel cause)
    | .ok sector =>
      let f := c.hue * 6.0 - Scalar.ofInt sector
      let p := c.value * (1.0 - c.saturation)
      let q := c.value * (1.0 - c.saturation * f)
      let t := c.value * (1.0 - c.saturation * (1.0 - f))
      .ok <| match sector % 6 with
        | 0 => ⟨c.value, t, p⟩
        | 1 => ⟨q, c.value, p⟩
        | 2 => ⟨p, c.value, t⟩
        | 3 => ⟨p, q, c.value⟩
        | 4 => ⟨t, p, c.value⟩
        | _ => ⟨c.value, p, q⟩

/-- The hue, saturation and value of channels; a grey has hue and saturation zero. -/
def Rgb.toHsv (c : Rgb α) : Except ColorError (Hsv α) :=
  let most := greater (greater c.red c.green) c.blue
  let least := lesser (lesser c.red c.green) c.blue
  let range := most - least
  if least == most then .ok ⟨0.0, 0.0, most⟩
  else if isZero most then .error .noBrightestChannel
  else
    let r := (most - c.red) / range
    let g := (most - c.green) / range
    let b := (most - c.blue) / range
    let sixths :=
      if c.red == most then b - g
      else if c.green == most then 2.0 + r - b
      else 4.0 + g - r
    .ok ⟨Scalar.modulo (sixths / 6.0) 1.0, range / most, most⟩

/-- The colour with its brightness scaled by a factor and kept from 0 to 1. -/
def Hsv.dim (c : Hsv α) (factor : α) : Hsv α :=
  { c with value := greater 0.0 (lesser 1.0 (c.value * factor)) }

end Seamark
