import Seamark.Playback.Stage

/-!
# Players

A player shows the segments of its timeline in a loop. At the start of a segment it tells its
listener, then arms a timer for the segment's duration, which moves it on to the next one. Starting
and stopping begin a new generation, and a timer of an older one has no effect, so at most one chain
of timers is alive whatever the listeners do.

The listeners may call any operation again. What they do is passed in as a function that runs a list
of actions, so that the operations of a player need not know how.
-/

namespace Seamark

/-- Runs the actions of a listener; the number is that of the player that called it, if one did. -/
abbrev React (α : Type) := Option Nat → List Action → Playback α Unit

namespace Player

open Stage

variable {α : Type} [Scalar α]

/-- Announces a segment to the listener of a player. -/
def announceStep (w : Wiring α) (react : React α) (p index : Nat) (s : Segment α) :
    Playback α Unit :=
  withPlayer p fun player => do
    let call := player.steps + 1
    setPlayer p { player with steps := call }
    note (.stepped player.tag index s.color s.level)
    react (some p) ((w.scriptOf player.tag).onStep call index s)

/-- Announces a reset to the listener of a player, if it wants to hear of it. -/
def announceReset (w : Wiring α) (react : React α) (p : Nat) : Playback α Unit :=
  withPlayer p fun player => do
    if player.hearsReset then
      let call := player.resets + 1
      setPlayer p { player with resets := call }
      note (.reset player.tag)
      react (some p) ((w.scriptOf player.tag).onReset call)

/-- Stops a player: its timer is called off and the display reset. -/
def stop (w : Wiring α) (react : React α) (p : Nat) : Playback α Unit :=
  withPlayer p fun player => do
    setPlayer p
      { player with timer := none, running := false, generation := player.generation + 1 }
    match player.timer with
    | some t => cancel t
    | none => pure ()
    announceReset w react p
    if player.running then note (.stopped player.name)

/-- Does something with a player, if it is running in the given generation. -/
def whenCurrent (p generation : Nat) (f : Player α → Playback α Unit) : Playback α Unit :=
  withPlayer p fun player => do
    if player.running && player.generation == generation then f player

/-- Shows the segment at the index of a player: tells the listener, then arms the timer for what
follows. A listener that ends with a fault, which is an ordinary failure, stops the player; an
interruption or an exit would pass by without stopping it. -/
def step (w : Wiring α) (react : React α) (p generation : Nat) : Playback α Unit :=
  whenCurrent p generation fun player => do
    match player.timeline[player.index]? with
    | none => pure ()
    | some segment =>
      try announceStep w react p player.index segment
      catch fault => do
        stop w react p
        throw fault
      whenCurrent p generation fun _ => do
        let t ← arm segment.duration p generation
        withPlayer p fun player => setPlayer p { player with timer := some t }

/-- Starts a player at its first segment, stopping it first. -/
def start (w : Wiring α) (react : React α) (p : Nat) : Playback α Unit := do
  stop w react p
  withPlayer p fun player => do
    if !player.timeline.isEmpty then
      let generation := player.generation + 1
      setPlayer p { player with running := true, index := 0, generation := generation }
      note (.playing player.name player.timeline.length player.timeline.total)
      step w react p generation

/-- Moves a player on to its next segment. -/
def advance (w : Wiring α) (react : React α) (p generation : Nat) : Playback α Unit :=
  whenCurrent p generation fun player => do
    setPlayer p { player with index := (player.index + 1) % player.timeline.length }
    step w react p generation

end Player

end Seamark
