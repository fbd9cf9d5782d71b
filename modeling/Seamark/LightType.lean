import Seamark.Text.Blank
import Seamark.Text.Upper

/-!
# Light types

The closed set of light types of a chart, each with its canonical spelling: one or two words in
capitals. A token names a type by that spelling in any case, with any blanks inside it.
-/

namespace Seamark

/-- The type of a light: what its rhythm looks like. -/
inductive LightType where
  /-- Steady light. -/
  | fixed
  /-- A light shown in one direction. -/
  | directional
  /-- Steady light shown in one direction. -/
  | directionalFixed
  /-- Short flashes, longer darkness. -/
  | flashing
  /-- Flashes in groups. -/
  | groupFlashing
  /-- Long flashes. -/
  | longFlashing
  /-- Sixty flashes a minute. -/
  | quick
  /-- A hundred and twenty flashes a minute. -/
  | veryQuick
  /-- Two hundred and forty flashes a minute. -/
  | ultraQuick
  /-- Quick flashes with breaks. -/
  | interruptedQuick
  /-- Light with short eclipses. -/
  | occulting
  /-- Eclipses in groups. -/
  | groupOcculting
  /-- Light and darkness of equal length. -/
  | isophase
  /-- Colours in turn. -/
  | alternating
  /-- Flashes with colours in turn. -/
  | alternatingFlashing
  /-- Eclipses with colours in turn. -/
  | alternatingOcculting
  /-- Equal light and darkness with colours in turn. -/
  | alternatingIsophase
  /-- Steady light with brighter flashes. -/
  | fixedAndFlashing
  /-- Flashes over a steady light. -/
  | flashingFixed
  /-- A character of the Morse alphabet. -/
  | morse
deriving DecidableEq, Repr

namespace LightType

/-- Every light type. -/
def all : List LightType :=
  [fixed, directional, directionalFixed, flashing, groupFlashing, longFlashing, quick, veryQuick,
   ultraQuick, interruptedQuick, occulting, groupOcculting, isophase, alternating,
   alternatingFlashing, alternatingOcculting, alternatingIsophase, fixedAndFlashing, flashingFixed,
   morse]

/-- The words of the canonical spelling. -/
def spelling : LightType → List String
  | fixed => ["F"]
  | directional => ["DIR"]
  | directionalFixed => ["DIR", "F"]
  | flashing => ["FL"]
  | groupFlashing => ["GP", "FL"]
  | longFlashing => ["LFL"]
  | quick => ["Q"]
  | veryQuick => ["VQ"]
  | ultraQuick => ["UQ"]
  | interruptedQuick => ["IQ"]
  | occulting => ["OC"]
  | groupOcculting => ["GP", "OC"]
  | isophase => ["ISO"]
  | alternating => ["AL"]
  | alternatingFlashing => ["AL", "FL"]
  | alternatingOcculting => ["AL", "OC"]
  | alternatingIsophase => ["AL", "ISO"]
  | fixedAndFlashing => ["FFL"]
  | flashingFixed => ["FL", "F"]
  | morse => ["MO"]

/-- The canonical spelling, its words joined by a space. -/
def name (t : LightType) : String :=
  " ".intercalate t.spelling

/-- The canonical spelling without the space. -/
def compactName (t : LightType) : String :=
  String.join t.spelling

/-- The type whose compact name a token spells once its blanks are taken out and it is put in
capitals. -/
def ofToken? (token : String) : Option LightType :=
  let key := Text.upperChars (token.toList.filter fun c => !Text.isBlank c)
  all.find? fun t => t.compactName.toList = key

/-- The type with a canonical spelling. -/
def ofName? (name : String) : Option LightType :=
  all.find? fun t => t.name = name

/-- The light never goes dark when it has no period. -/
def isContinuous : LightType → Bool
  | fixed | directional | directionalFixed => true
  | _ => false

end LightType

end Seamark
