import Seamark.Playback.Manager

/-!
# Running a stage

An operation is an action from outside, the passing of some time, or a timer that runs late. A fault
that leaves an action or a timer is noted and ends there.
-/

namespace Seamark

/-- What can be done to a stage from outside. -/
inductive Operation (α : Type) where
  /-- Do what a listener could do; `start` and `stop` mean the first player. -/
  | act (action : Action)
  /-- Let some time pass. -/
  | advance (time : α)
  /-- Run a timer now, even one that was called off. -/
  | fire (timer : Nat)
deriving DecidableEq, Repr

namespace Stage

variable {α : Type} [Scalar α]

/-- The deepest that listeners may call each other. -/
def maxDepth : Nat := 500

/-- The most timers that run while some time passes. -/
def maxFirings : Nat := 1000

/-- Performs an action, with listeners nested no deeper than the given number. -/
def perform (w : Wiring α) : Nat → Option Nat → Action → Playback α Unit
  | 0, _, _ => throw .tooDeep
  | depth + 1, caller, action =>
    let react : React α := fun caller actions => actions.forM (perform w depth caller)
    match action with
    | .fail fault => throw fault
    | .start =>
      match caller with
      | some p => Player.start w react p
      | none => pure ()
    | .stop =>
      match caller with
      | some p => Player.stop w react p
      | none => pure ()
    | .startLight light code tag hearsReset => do
      let shown ← Manager.startLight w react light code tag hearsReset
      note (.started light shown)
    | .stopLight light => Manager.stopLight w react light
    | .stopAll => Manager.stopAll w react

/-- How far a run may go. -/
structure Limits where
  /-- The deepest that listeners may call each other. -/
  depth : Nat := maxDepth
  /-- The most timers that run while some time passes. -/
  firings : Nat := maxFirings

/-- Runs the actions of a listener, with listeners nested no deeper than the given number. -/
def react (w : Wiring α) (depth : Nat) : React α :=
  fun caller actions => actions.forM (perform w depth caller)

/-- Notes a fault of an operation and ends it there. -/
def noting (m : Playback α Unit) : Playback α Unit := do
  try m catch fault => note (.raised fault)

/-- Runs a timer: its player moves on. -/
def runTimer (w : Wiring α) (depth t : Nat) (timer : Timer α) : Playback α Unit := do
  markTimer t timer .fired
  noting (Player.advance w (react w depth) timer.player timer.generation)

/-- Runs the timers that are due at a time, one after the other, with the clock at the time of
each; at most the given number of them. -/
def runDue (w : Wiring α) (depth : Nat) (target : α) : Nat → Playback α Unit
  | 0 => pure ()
  | firings + 1 => do
    match nextDue? target (← get).timers with
    | none => pure ()
    | some (timer, t) => do
      modify fun s => { s with clock := greater s.clock timer.due }
      runTimer w depth t timer
      runDue w depth target firings

/-- Lets some time pass. -/
def pass (w : Wiring α) (limits : Limits) (time : α) : Playback α Unit := do
  let target := (← get).clock + time
  runDue w limits.depth target limits.firings
  modify fun s => { s with clock := target }

/-- Runs a timer now, unless it ran before. -/
def fireLate (w : Wiring α) (depth t : Nat) : Playback α Unit := do
  match (← get).timers[t]? with
  | some timer => if timer.state = .fired then note .nothingToFire else runTimer w depth t timer
  | none => note .nothingToFire

/-- Carries out an operation. -/
def operate (w : Wiring α) (limits : Limits) : Operation α → Playback α Unit
  | .act action => noting (perform w (limits.depth + 1) (some 0) action)
  | .advance time => pass w limits time
  | .fire t => fireLate w limits.depth t

/-- The stage after an operation. -/
def after (w : Wiring α) (s : Stage α) (operation : Operation α) (limits : Limits := {}) : Stage α :=
  match operate w limits operation s with
  | .ok _ s => s
  | .error _ s => s

end Stage

end Seamark
