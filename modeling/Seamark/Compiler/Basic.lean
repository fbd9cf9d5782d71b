import Seamark.Characteristic.Groups
import Seamark.Characteristic.Reader
import Seamark.Morse
import Seamark.Timeline.Basic

/-!
# What a compiler is given

A compiler turns a characteristic into a timeline. Here are its settings, the causes for which it can
refuse a characteristic, and what every rule starts from.
-/

namespace Seamark

/-- The settings of a compiler. -/
structure Compiler (α : Type) where
  /-- The compiler's own Morse table, or none to use the shared one. -/
  table : Option (Table String) := none
  /-- The length of a cycle when the characteristic gives no period. -/
  fallbackPeriod : α
  /-- How long a steady light without a period stays in each of its colours. -/
  dwell : α
  /-- The Morse character sent when the characteristic names none. -/
  defaultCharacter : String := "A"
  /-- The types for which the compiler has no rule of its own. -/
  withoutRule : List LightType := []
deriving DecidableEq, Repr

/-- Why a characteristic has no timeline. -/
inductive CompileError where
  /-- A rule needs a first colour and there is none. -/
  | noFirstColor
  /-- The time would be shared among no colours. -/
  | noColorToShare
  /-- A count is larger than every number of seconds. -/
  | countTooLarge
  /-- A count is written with more digits than can be read. -/
  | tooManyDigits (cause : TooManyDigits)
deriving DecidableEq, Repr

namespace CompileError

/-- The text of an error. -/
def message : CompileError → String
  | noFirstColor => "the light has no color"
  | noColorToShare => "the light has no color to share its time"
  | countTooLarge => "count too large"
  | tooManyDigits cause => cause.message

end CompileError

variable {α : Type} [Scalar α]

/-- Segments of at most this length are not shown. -/
def shortest : α := 1e-9

/-- The settings of a compiler that is given none. -/
def Compiler.standard : Compiler α where
  fallbackPeriod := 10.0
  dwell := 3.0

/-- What every rule starts from. -/
structure Setup (α : Type) where
  /-- The characteristic. -/
  subject : Characteristic α
  /-- The period, or the compiler's fallback if there is none. -/
  safePeriod : α
  /-- A steady light without a period. -/
  isContinuous : Bool
deriving DecidableEq, Repr

/-- The period of a characteristic; a period of zero carries no timing. -/
def Characteristic.timing (c : Characteristic α) : Option α :=
  c.period.filter fun p => !isZero p

namespace Setup

/-- What the rules start from for a characteristic. -/
def of (compiler : Compiler α) (c : Characteristic α) : Setup α where
  subject := c
  safePeriod := c.timing.getD compiler.fallbackPeriod
  isContinuous := c.type.isContinuous && c.timing.isNone

/-- The period, if it carries timing. -/
def period (s : Setup α) : Option α := s.subject.timing

/-- The characteristic has a group with some text in it. -/
def isGrouped (s : Setup α) : Bool :=
  match s.subject.group with
  | none => false
  | some text => text ≠ ""

/-- The counts of the groups. -/
def counts (s : Setup α) : Except CompileError (List Nat) :=
  match Group.counts s.subject.group with
  | .ok counts => .ok counts
  | .error e => .error (.tooManyDigits e)

/-- The first colour. -/
def firstColor (s : Setup α) : Except CompileError String :=
  match s.subject.colors with
  | [] => .error .noFirstColor
  | color :: _ => .ok color

end Setup

/-- The colour at a place when colours are given out in turn. -/
def colorInTurn (colors : List String) (place : Nat) : Except CompileError String :=
  match colors[place % colors.length]? with
  | some color => .ok color
  | none => .error .noColorToShare

/-- Counts added up. -/
def addedUp : List Nat → Nat
  | [] => 0
  | n :: ns => n + addedUp ns

/-- A count as a number. -/
def countNumber (n : Nat) : Except CompileError α :=
  match Scalar.ofCount? n with
  | some x => .ok x
  | none => .error .countTooLarge

/-- A segment, unless it is too short to be shown. -/
def emit (lit : Bool) (duration : α) (color : String) (intensity : α) : Timeline α :=
  if shortest < duration then [⟨lit, duration, color, intensity⟩] else []

/-- A lit segment at full brightness. -/
def light (duration : α) (color : String) : Timeline α := emit true duration color 1.0

/-- A dark segment. -/
def dark (duration : α) (color : String) : Timeline α := emit false duration color 1.0

/-- A piece of a timeline several times over. -/
def repeated (n : Nat) (ts : Timeline α) : Timeline α := (List.replicate n ts).flatten

end Seamark
