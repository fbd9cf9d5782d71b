import Seamark.Color.Bar
import Seamark.Command.Outcome
import Seamark.Playback.Messages

/-!
# Playing a light in the terminal

A timeline is played for some time, with a coloured bar for every segment. The wait may be cut short,
or refused by the clock; in every case the player is stopped before the command ends. A player whose
first segment cannot be drawn has stopped itself.
-/

namespace Seamark.Command

/-- How a performance ends. -/
inductive Close where
  /-- The time was over. -/
  | completed
  /-- The wait was cut short. -/
  | interrupted
  /-- The clock refused to wait. -/
  | refused (cause : WaitError)
  /-- The first segment could not be shown. -/
  | failed (fault : Fault)
deriving DecidableEq, Repr

/-- A timeline played for some time. -/
structure Performance (α : Type) where
  /-- The stage when the wait ended. -/
  waited : Stage α
  /-- The stage when the player was stopped. -/
  final : Stage α
  /-- How the performance ended. -/
  close : Close

variable {α : Type} [Scalar α]

/-- A listener that draws a bar for each segment, and fails on one that cannot be drawn. -/
def barScript (table : Table String) : Script α where
  onStep _ _ s :=
    match Color.bar table s with
    | .ok _ => []
    | .error cause => [.fail (.display cause)]

/-- Everyone on this stage draws bars. -/
def barWiring (table : Table String) : Wiring α where
  scriptOf _ := barScript table
  timelineOf _ := .ok []

/-- The player of a notation's timeline. -/
def barPlayer (code : String) (ts : Timeline α) : Player α where
  name := code
  timeline := ts
  tag := "bar"
  hearsReset := true

/-- Plays a timeline for a number of seconds of a clock, or up to an interruption. -/
def perform (table : Table String) (code : String) (ts : Timeline α) (seconds : α)
    (interruption : Option α) (clock : Clock α := .counted) : Performance α :=
  let w := barWiring table
  let before : Stage α := { Stage.initial with players := [barPlayer code ts] }
  match Stage.perform w (Stage.maxDepth + 1) (some 0) .start before with
  | .error fault s => ⟨s, s, .failed fault⟩
  | .ok _ s =>
    let (waited, close) : Stage α × Close :=
      match clock.error? seconds, interruption with
      | some cause, _ => (s, .refused cause)
      | none, some time => (s.after w (.advance time), .interrupted)
      | none, none => (s.after w (.advance seconds), .completed)
    ⟨waited, waited.after w (.act .stop), close⟩

/-- The spaces that wipe out a bar and what is written beside it. -/
def wipe : String :=
  "".pushn ' ' (Color.barWidth + 12)

/-- The line in which the bar of a segment is shown. The next one is written over it. -/
def barLine (bar : String) (index : Nat) (color : String) : String :=
  bar ++ " [" ++ Text.padLeft 2 (toString index) ++ "] " ++ color ++ "\r"

/-- The text printed for an event of the playback of a timeline, for the events that print one. -/
def eventText? (table : Table String) (ts : Timeline α) : Event α → Option String
  | .stepped _ index color _ =>
    match (ts[index]?).map (Color.bar table) with
    | some (.ok bar) => some (barLine bar index color)
    | _ => none
  | .reset _ => some (wipe ++ "\r")
  | e => e.message?.map (· ++ "\n")

/-- What is printed for the entries of a log. -/
def entryChunks (table : Table String) (ts : Timeline α) (log : List (Entry α)) : List (Chunk α) :=
  log.filterMap fun entry => (eventText? table ts entry.event).map (⟨entry.time, ·⟩)

/-- What a performance prints. -/
def Performance.printed (p : Performance α) (table : Table String) (ts : Timeline α) :
    List (Chunk α) :=
  entryChunks table ts p.waited.log
    ++ (if p.close = .interrupted then [⟨p.waited.clock, "\n[PLAYER] Interrupted\n"⟩] else [])
    ++ entryChunks table ts (p.final.log.drop p.waited.log.length)

/-- The outcome of playing the timeline of a notation. -/
def play (table : Table String) (code : String) (ts : Timeline α) (seconds : α)
    (interruption : Option α) (clock : Clock α := .counted) : Outcome α :=
  let p := perform table code ts seconds interruption clock
  let printed := p.printed table ts
  match p.close with
  | .completed | .interrupted => ⟨printed, .status 0⟩
  | .refused cause => .troubled printed (.wait cause)
  | .failed fault => .troubled printed (.playback fault)

end Seamark.Command
