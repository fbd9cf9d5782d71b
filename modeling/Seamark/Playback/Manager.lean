import Seamark.Playback.Player

/-!
# Lights on show

One player for each light on show. Showing a light again replaces its player; a light whose notation
has no timeline is taken off show and its display reset.
-/

namespace Seamark.Manager

open Stage

variable {α : Type} [Scalar α]

/-- Takes a light off show and stops its player. -/
def stopLight (w : Wiring α) (react : React α) (light : String) : Playback α Unit := do
  match (← get).lights.get? light with
  | none => pure ()
  | some p => do
    modify fun s => { s with lights := s.lights.erase light }
    Player.stop w react p

/-- Takes every light off show, then stops their players in order. -/
def stopAll (w : Wiring α) (react : React α) : Playback α Unit := do
  let players := (← get).lights.entries.map (·.2)
  modify fun s => { s with lights := {} }
  players.forM (Player.stop w react)

/-- Announces a reset to listeners that have no player. -/
def announceBlank (w : Wiring α) (react : React α) (tag : String) : Playback α Unit := do
  note (.reset tag)
  react none ((w.scriptOf tag).onReset 1)

/-- Puts a timeline on show in place of what the light showed before. A listener may have replaced
the new player while it started; then it is stopped again. -/
def showTimeline (w : Wiring α) (react : React α) (light : String) (ts : Timeline α) (tag : String)
    (hearsReset : Bool) : Playback α Unit := do
  let p ← addPlayer { name := light, timeline := ts, tag := tag, hearsReset := hearsReset }
  let replaced := (← get).lights.get? light
  modify fun s => { s with lights := s.lights.set light p }
  match replaced with
  | some q => Player.stop w react q
  | none => pure ()
  Player.start w react p
  if (← get).lights.get? light != some p then Player.stop w react p

/-- Puts a light on show; `false` if its notation has no timeline. -/
def startLight (w : Wiring α) (react : React α) (light : String) (code : Option String)
    (tag : String) (hearsReset : Bool) : Playback α Bool := do
  match w.timelineOf code with
  | .error cause => throw (.compile cause)
  | .ok [] => do
    stopLight w react light
    if hearsReset then announceBlank w react tag
    return false
  | .ok ts => do
    showTimeline w react light ts tag hearsReset
    return true

end Seamark.Manager
