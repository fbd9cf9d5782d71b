import Seamark.Color.Basic
import Seamark.Compiler.Basic
import Seamark.Table

/-!
# The stage

Playback happens on a stage: a clock, timers that ask to be run when the clock reaches a time, the
players that ever were made, the lights that are on show, and a log of what happened. What the
listeners of a player do when they are called is written in scripts, so a whole run of playback is a
value.
-/

namespace Seamark

/-- An ordinary failure that ends a callback or an operation before its time. What ends the whole
program, like an interruption or a request to exit, is no fault: nothing here waits for it, and it is
not part of the model. -/
inductive Fault where
  /-- A listener gave up, with a reason. -/
  | listener (reason : String)
  /-- A light's characteristic has no timeline. -/
  | compile (cause : CompileError)
  /-- A segment cannot be drawn. -/
  | display (cause : ColorError)
  /-- Listeners called each other too deeply. -/
  | tooDeep
deriving DecidableEq, Repr

/-- What a listener can do when it is called. -/
inductive Action where
  /-- Give up. -/
  | fail (fault : Fault)
  /-- Start the player that called. -/
  | start
  /-- Stop the player that called. -/
  | stop
  /-- Show a light, given by its notation, with new listeners of some tag. -/
  | startLight (light : String) (code : Option String) (tag : String) (hearsReset : Bool)
  /-- Take a light off show. -/
  | stopLight (light : String)
  /-- Take every light off show. -/
  | stopAll
deriving DecidableEq, Repr

/-- What the listeners of a tag do at each call. Calls are counted from one for every player. -/
structure Script (α : Type) where
  /-- At the start of a segment: the number of the call, the index, the segment. -/
  onStep : Nat → Nat → Segment α → List Action := fun _ _ _ => []
  /-- At a reset of the display: the number of the call. -/
  onReset : Nat → List Action := fun _ => []

/-- What a stage is connected to. -/
structure Wiring (α : Type) where
  /-- The scripts of the listeners by tag. -/
  scriptOf : String → Script α
  /-- The timeline of a light's notation. -/
  timelineOf : Option String → Except CompileError (Timeline α)

/-- Where a timer is in its life. -/
inductive TimerState where
  /-- Waiting for its time. -/
  | pending
  /-- Called off before its time. -/
  | cancelled
  /-- Run. -/
  | fired
deriving DecidableEq, Repr

/-- A request to move a player on at a time. -/
structure Timer (α : Type) where
  /-- When to run. -/
  due : α
  /-- The time between arming the timer and running it. -/
  interval : α
  /-- The player to move on. -/
  player : Nat
  /-- The generation of the player for which the timer was armed. -/
  generation : Nat
  /-- Where the timer is in its life. -/
  state : TimerState := .pending
deriving DecidableEq, Repr

/-- A playback loop for one timeline. -/
structure Player (α : Type) where
  /-- The name in messages. -/
  name : String
  /-- What is played. -/
  timeline : Timeline α
  /-- The tag of its listeners. -/
  tag : String
  /-- A listener is told when the display is to be reset. -/
  hearsReset : Bool
  /-- The loop is active. -/
  running : Bool := false
  /-- The index of the segment shown. -/
  index : Nat := 0
  /-- Counts starts and stops, so that a timer from before one of them has no effect. -/
  generation : Nat := 0
  /-- The timer that will move the player on. -/
  timer : Option Nat := none
  /-- How often a segment was announced. -/
  steps : Nat := 0
  /-- How often a reset was announced. -/
  resets : Nat := 0
deriving DecidableEq, Repr

/-- What can be seen of playback. -/
inductive Event (α : Type) where
  /-- A segment was announced to the listeners of a tag. -/
  | stepped (tag : String) (index : Nat) (color : String) (level : α)
  /-- A reset was announced to the listeners of a tag. -/
  | reset (tag : String)
  /-- A player reported that it plays a number of segments in a cycle of some length. -/
  | playing (name : String) (segments : Nat) (cycle : α)
  /-- A player reported that it stopped. -/
  | stopped (name : String)
  /-- A timer was armed. -/
  | armed (timer : Nat) (interval : α)
  /-- A pending timer was called off. -/
  | cancelled (timer : Nat)
  /-- An operation or a timer ended with a fault. -/
  | raised (fault : Fault)
  /-- There was no timer to run. -/
  | nothingToFire
  /-- A light was put on show, or its notation has no timeline. -/
  | started (light : String) (shown : Bool)
deriving DecidableEq, Repr

/-- An event with the time of the clock when it happened. -/
structure Entry (α : Type) where
  /-- The time. -/
  time : α
  /-- What happened. -/
  event : Event α
deriving DecidableEq, Repr

/-- The state of all playback. -/
structure Stage (α : Type) where
  /-- The time. -/
  clock : α
  /-- Every timer that was armed; a timer's number is its place. -/
  timers : List (Timer α) := []
  /-- Every player that was made; a player's number is its place. -/
  players : List (Player α) := []
  /-- The players of the lights on show. -/
  lights : Table Nat := {}
  /-- What happened, in order. -/
  log : List (Entry α) := []
deriving DecidableEq, Repr

/-- An operation on a stage, which may end with a fault. -/
abbrev Playback (α : Type) := EStateM Fault (Stage α)

namespace Stage

variable {α : Type} [Scalar α]

/-- The stage before anything happened. -/
def initial : Stage α where
  clock := 0.0

/-- The numbers of the pending timers. -/
def pendingTimers (s : Stage α) : List Nat :=
  (s.timers.zipIdx.filter fun entry => entry.1.state = .pending).map (·.2)

/-- Adds an event to the log. -/
def note (event : Event α) : Playback α Unit :=
  modify fun s => { s with log := s.log ++ [⟨s.clock, event⟩] }

/-- Replaces the player of a number. -/
def setPlayer (p : Nat) (player : Player α) : Playback α Unit :=
  modify fun s => { s with players := s.players.set p player }

/-- Does something with the player of a number, if there is one. -/
def withPlayer (p : Nat) (f : Player α → Playback α Unit) : Playback α Unit := do
  match (← get).players[p]? with
  | some player => f player
  | none => pure ()

/-- Makes a player and gives its number. -/
def addPlayer (player : Player α) : Playback α Nat := do
  let s ← get
  set { s with players := s.players ++ [player] }
  return s.players.length

/-- Arms a timer that moves a player on after some time, and gives its number. -/
def arm (interval : α) (player generation : Nat) : Playback α Nat := do
  let s ← get
  let timer : Timer α :=
    { due := s.clock + interval, interval := interval, player := player, generation := generation }
  set { s with timers := s.timers ++ [timer] }
  note (.armed s.timers.length interval)
  return s.timers.length

/-- Puts the timer of a number into a state. -/
def markTimer (t : Nat) (timer : Timer α) (state : TimerState) : Playback α Unit :=
  modify fun s => { s with timers := s.timers.set t { timer with state := state } }

/-- Calls a timer off, if it is pending. -/
def cancel (t : Nat) : Playback α Unit := do
  match (← get).timers[t]? with
  | some timer =>
    if timer.state = .pending then do
      markTimer t timer .cancelled
      note (.cancelled t)
  | none => pure ()

/-- Tells whether one timer comes before another one: by its time, then by its number. -/
def comesBefore (a b : Timer α × Nat) : Bool :=
  a.1.due < b.1.due || (a.1.due == b.1.due && a.2 < b.2)

/-- The pending timer to run first among those due at a time. -/
def nextDue? (target : α) (timers : List (Timer α)) : Option (Timer α × Nat) :=
  (timers.zipIdx.filter fun entry => entry.1.state = .pending && entry.1.due ≤ target).foldl
    (fun best entry => match best with
      | none => some entry
      | some b => if comesBefore entry b then some entry else some b)
    none

end Stage

end Seamark
