import Mathlib
import Seamark.Playback.Run

/-!
# What the operations of a player do to a stage

The listeners of a player may call back when a segment is announced. This file separates what a
player does by itself from what its listeners do: stopping, opening a turn with the announcement
of a segment, and closing the turn by arming a timer are functions of the stage. Starting a player
or moving it on is then to open a turn, to run the listener, and to close the turn.

Throughout, the listeners do nothing when they hear of a reset (`Wiring.QuietResets`).
-/

namespace Seamark

variable {α : Type} {β γ : Type}

/-! ### Running a playback -/

namespace Playback

@[simp] lemma pure_apply (b : β) (s : Stage α) : (pure b : Playback α β) s = .ok b s := rfl

@[simp] lemma throw_apply (fault : Fault) (s : Stage α) :
    (throw fault : Playback α β) s = .error fault s := rfl

@[simp] lemma bind_apply (m : Playback α β) (f : β → Playback α γ) (s : Stage α) :
    (m >>= f) s = match m s with
      | .ok b s => f b s
      | .error fault s => .error fault s := by
  show EStateM.bind m f s = _
  unfold EStateM.bind
  cases m s <;> rfl

/-- A playback in two parts that comes to its end comes through both. -/
lemma exists_of_bind_eq_ok {m : Playback α β} {f : β → Playback α γ} {s s' : Stage α} {c : γ}
    (h : (m >>= f) s = .ok c s') : ∃ b s₁, m s = .ok b s₁ ∧ f b s₁ = .ok c s' := by
  rw [bind_apply] at h
  cases hs : m s with
  | ok b s₁ => exact ⟨b, s₁, rfl, by rwa [hs] at h⟩
  | error fault s₁ =>
    rw [hs] at h
    cases h

@[simp] lemma map_apply (f : β → γ) (m : Playback α β) (s : Stage α) :
    (f <$> m) s = match m s with
      | .ok b s => .ok (f b) s
      | .error fault s => .error fault s := by
  show EStateM.map f m s = _
  unfold EStateM.map
  cases m s <;> rfl

@[simp] lemma get_apply (s : Stage α) : (get : Playback α (Stage α)) s = .ok s s := rfl

@[simp] lemma set_apply (s' s : Stage α) : (set s' : Playback α PUnit) s = .ok ⟨⟩ s' := rfl

@[simp] lemma modify_apply (f : Stage α → Stage α) (s : Stage α) :
    (modify f : Playback α PUnit) s = .ok ⟨⟩ (f s) := rfl

@[simp] lemma tryCatch_apply (m : Playback α β) (handle : Fault → Playback α β) (s : Stage α) :
    (tryCatch m handle) s = match m s with
      | .ok b s => .ok b s
      | .error fault s => handle fault s := by
  show EStateM.tryCatch m handle s = _
  unfold EStateM.tryCatch
  cases m s <;> rfl

/-- The stage in which something ended, whether or not a fault left it. -/
def stageOf : EStateM.Result Fault (Stage α) β → Stage α
  | .ok _ s => s
  | .error _ s => s

@[simp] lemma stageOf_ok (b : β) (s : Stage α) : stageOf (.ok b s) = s := rfl

@[simp] lemma stageOf_error (fault : Fault) (s : Stage α) :
    stageOf (.error fault s : EStateM.Result Fault (Stage α) β) = s := rfl

end Playback

/-! ### Changes of a stage -/

/-- No listener does anything when it hears of a reset. -/
def Wiring.QuietResets (w : Wiring α) : Prop :=
  ∀ tag call, (w.scriptOf tag).onReset call = []

/-- A timer after it was called off. -/
def Timer.calledOff (timer : Timer α) : Timer α :=
  if timer.state = .pending then { timer with state := .cancelled } else timer

namespace Player

/-- A player after it was stopped. -/
def halted (player : Player α) : Player α :=
  { player with
    timer := none
    running := false
    generation := player.generation + 1
    resets := if player.hearsReset then player.resets + 1 else player.resets }

/-- Timers after the one that a player remembers was called off. -/
def callOff (player : Player α) (timers : List (Timer α)) : List (Timer α) :=
  match player.timer with
  | some t => timers.modify t Timer.calledOff
  | none => timers

lemma getElem?_callOff (player : Player α) (timers : List (Timer α)) (t : Nat) :
    (player.callOff timers)[t]? =
      if player.timer = some t then timers[t]?.map Timer.calledOff else timers[t]? := by
  cases h : player.timer with
  | none => simp [callOff, h]
  | some t' =>
    rw [callOff, h]
    by_cases htt : t' = t
    · simp [htt]
    · simp [htt]

/-- A player that was started and announced its first segment. -/
def begun (player : Player α) : Player α :=
  { player with
    running := true
    index := 0
    generation := player.generation + 1
    steps := player.steps + 1 }

/-- The index that follows the index of a player in the loop. -/
def nextIndex (player : Player α) : Nat :=
  (player.index + 1) % player.timeline.length

/-- A player that moved on and announced its next segment. -/
def moved (player : Player α) : Player α :=
  { player with
    index := player.nextIndex
    steps := player.steps + 1 }

end Player

/-- A segment that a player has announced and for which it has not armed a timer yet. -/
structure Turn (α : Type) where
  /-- The player. -/
  player : Nat
  /-- The generation of the player in which the segment was announced. -/
  generation : Nat
  /-- The segment. -/
  segment : Segment α

namespace Stage

/-- The stage with an event added to its log. -/
def noted (s : Stage α) (event : Event α) : Stage α :=
  { s with log := s.log ++ [⟨s.clock, event⟩] }

/-- The events of stopping a player. -/
def partings (s : Stage α) (player : Player α) : List (Event α) :=
  (match player.timer with
    | some t => if (s.timers[t]?.map (·.state)) = some .pending then [.cancelled t] else []
    | none => [])
  ++ (if player.hearsReset then [.reset player.tag] else [])
  ++ (if player.running then [.stopped player.name] else [])

/-- The stage after a player was stopped. -/
def stopPlayer (s : Stage α) (p : Nat) : Stage α :=
  match s.players[p]? with
  | none => s
  | some player =>
    { s with
      timers := player.callOff s.timers
      players := s.players.set p player.halted
      log := s.log ++ (s.partings player).map (⟨s.clock, ·⟩) }

/-- A turn is the current one of its player: the player is running in the generation of the turn. -/
def IsCurrent (s : Stage α) (p generation : Nat) : Prop :=
  ∃ player, s.players[p]? = some player ∧ player.running = true ∧ player.generation = generation

variable [Scalar α]

/-- The stage with a timer armed for what follows a turn of a player. -/
def armedFor (s : Stage α) (turn : Turn α) (player : Player α) : Stage α :=
  { s with
    timers := s.timers ++
      [{ due := s.clock + turn.segment.duration, interval := turn.segment.duration,
         player := turn.player, generation := turn.generation }]
    players := s.players.set turn.player { player with timer := some s.timers.length }
    log := s.log ++ [⟨s.clock, .armed s.timers.length turn.segment.duration⟩] }

/-- The stage after a turn: if the player is still in it, a timer is armed. -/
def closeTurn (s : Stage α) (turn : Turn α) : Stage α :=
  match s.players[turn.player]? with
  | none => s
  | some player =>
    if player.running = true ∧ player.generation = turn.generation then s.armedFor turn player
    else s

/-- The event of announcing a segment to the listener of a player. -/
def announcement (player : Player α) (index : Nat) (segment : Segment α) : Event α :=
  .stepped player.tag index segment.color segment.level

/-- The stage after a stopped player started and announced its first segment. -/
def beginTurn (s : Stage α) (p : Nat) (player : Player α) (segment : Segment α) : Stage α :=
  { s with
    players := s.players.set p player.begun
    log := s.log ++
      [⟨s.clock, .playing player.name player.timeline.length player.timeline.total⟩,
       ⟨s.clock, announcement player 0 segment⟩] }

/-- The stage after a player moved on and announced its next segment. -/
def nextTurn (s : Stage α) (p : Nat) (player : Player α) (segment : Segment α) : Stage α :=
  { s with
    players := s.players.set p player.moved
    log := s.log ++ [⟨s.clock, announcement player player.nextIndex segment⟩] }

/-- What the listener of a player does at its next announcement. -/
def replies (w : Wiring α) (player : Player α) (index : Nat) (segment : Segment α) : List Action :=
  (w.scriptOf player.tag).onStep (player.steps + 1) index segment

/-- The end of a turn whose listener ran: a fault stops the player and goes on. -/
def endTurn (w : Wiring α) (depth : Nat) (turn : Turn α) :
    EStateM.Result Fault (Stage α) Unit → EStateM.Result Fault (Stage α) Unit
  | .ok _ s => .ok ⟨⟩ (s.closeTurn turn)
  | .error fault s =>
    match Player.stop w (react w depth) turn.player s with
    | .ok _ s => .error fault s
    | .error fault s => .error fault s

/-! ### The operations of a player -/

lemma react_nil (w : Wiring α) (depth : Nat) (caller : Option Nat) (s : Stage α) :
    react w depth caller [] s = .ok ⟨⟩ s := rfl

section

omit [Scalar α]

lemma note_apply (event : Event α) (s : Stage α) : note event s = .ok ⟨⟩ (s.noted event) := rfl

lemma withPlayer_of_some {p : Nat} {s : Stage α} {player : Player α}
    (hp : s.players[p]? = some player) (f : Player α → Playback α Unit) :
    withPlayer p f s = f player s := by
  simp [withPlayer, hp]

lemma withPlayer_of_none {p : Nat} {s : Stage α} (hp : s.players[p]? = none)
    (f : Player α → Playback α Unit) : withPlayer p f s = .ok ⟨⟩ s := by
  simp [withPlayer, hp]

lemma set_player_self {p : Nat} {s : Stage α} {player : Player α}
    (hp : s.players[p]? = some player) : s.players.set p player = s.players := by
  obtain ⟨hlen, hget⟩ := List.getElem?_eq_some_iff.mp hp
  rw [← hget, List.set_getElem_self]

lemma getElem?_set_player {p : Nat} {s : Stage α} {player : Player α}
    (hp : s.players[p]? = some player) (q : Player α) : (s.players.set p q)[p]? = some q := by
  obtain ⟨hlen, -⟩ := List.getElem?_eq_some_iff.mp hp
  rw [List.getElem?_set_self hlen]

/-- Calling a timer off changes the timer and says so if it was pending. -/
lemma cancel_apply (t : Nat) (s : Stage α) :
    cancel t s = .ok ⟨⟩ { s with
      timers := s.timers.modify t Timer.calledOff
      log := s.log ++ (if (s.timers[t]?.map (·.state)) = some .pending
        then [.cancelled t] else []).map (⟨s.clock, ·⟩) } := by
  cases ht : s.timers[t]? with
  | none =>
    have hlen : s.timers.length ≤ t := List.getElem?_eq_none_iff.mp ht
    simp [cancel, ht, List.modify_eq_self hlen]
  | some timer =>
    obtain ⟨hlen, hget⟩ := List.getElem?_eq_some_iff.mp ht
    by_cases hpending : timer.state = .pending
    · simp [cancel, ht, hpending, markTimer, note_apply, noted, List.modify_eq_set_getElem?,
        Timer.calledOff]
    · have hself : s.timers.set t timer = s.timers := by rw [← hget, List.set_getElem_self]
      simp [cancel, ht, hpending, List.modify_eq_set_getElem?, Timer.calledOff, hself]

end

end Stage

namespace Player

open Stage

variable [Scalar α] {w : Wiring α} {depth p generation : Nat} {s : Stage α} {player : Player α}

/-- A reset is counted and noted if the listener wants to hear of it. -/
lemma announceReset_eq (hw : w.QuietResets) (depth p : Nat) (s : Stage α) :
    announceReset w (react w depth) p s = match s.players[p]? with
      | none => .ok ⟨⟩ s
      | some player => .ok ⟨⟩ { s with
        players := s.players.set p { player with
          resets := if player.hearsReset then player.resets + 1 else player.resets }
        log := s.log ++ (if player.hearsReset then [.reset player.tag] else []).map
          (⟨s.clock, ·⟩) } := by
  cases hp : s.players[p]? with
  | none => rw [announceReset, withPlayer_of_none hp]
  | some player =>
    rw [announceReset, withPlayer_of_some hp]
    by_cases hears : player.hearsReset = true
    · simp [hears, setPlayer, note_apply, noted, hw _ _, react_nil]
    · simp only [if_neg hears, set_player_self hp, List.map_nil, List.append_nil]
      rfl

/-- Stopping a player is a function of the stage. -/
lemma stop_eq (hw : w.QuietResets) (depth p : Nat) (s : Stage α) :
    stop w (react w depth) p s = .ok ⟨⟩ (s.stopPlayer p) := by
  cases hp : s.players[p]? with
  | none => simp [stop, withPlayer_of_none hp, stopPlayer, hp]
  | some player =>
    rw [stop, withPlayer_of_some hp]
    cases ht : player.timer with
    | none =>
      -- no timer to call off: the reset and, if the player ran, its end are noted
      by_cases hrun : player.running = true <;>
        simp [setPlayer, announceReset_eq hw, getElem?_set_player hp, hrun, note_apply, noted,
          stopPlayer, hp, ht, halted, partings, callOff]
    | some t =>
      by_cases hrun : player.running = true <;>
        simp [setPlayer, cancel_apply, announceReset_eq hw, getElem?_set_player hp, hrun,
          note_apply, noted, stopPlayer, hp, ht, halted, partings, callOff]

lemma endTurn_error (hw : w.QuietResets) (turn : Turn α) (fault : Fault) (s : Stage α) :
    endTurn w depth turn (.error fault s) = .error fault (s.stopPlayer turn.player) := by
  simp [endTurn, stop_eq hw]

omit [Scalar α] in
lemma whenCurrent_of_current (hp : s.players[p]? = some player) (hrun : player.running = true)
    (f : Player α → Playback α Unit) :
    whenCurrent p player.generation f s = f player s := by
  rw [whenCurrent, withPlayer_of_some hp]
  simp [hrun]

omit [Scalar α] in
lemma whenCurrent_of_not_current (h : ¬ s.IsCurrent p generation)
    (f : Player α → Playback α Unit) : whenCurrent p generation f s = .ok ⟨⟩ s := by
  cases hp : s.players[p]? with
  | none => rw [whenCurrent, withPlayer_of_none hp]
  | some player =>
    rw [whenCurrent, withPlayer_of_some hp]
    have hcond : (player.running && player.generation == generation) = false := by
      by_contra hc
      rw [Bool.not_eq_false, Bool.and_eq_true, beq_iff_eq] at hc
      exact h ⟨player, hp, hc.1, hc.2⟩
    simp [hcond]

lemma closeTurn_of_current {turn : Turn α} (hp : s.players[turn.player]? = some player)
    (hrun : player.running = true) (hgen : player.generation = turn.generation) :
    s.closeTurn turn = s.armedFor turn player := by
  simp [closeTurn, hp, hrun, hgen]

lemma closeTurn_of_not_current {turn : Turn α} (h : ¬ s.IsCurrent turn.player turn.generation) :
    s.closeTurn turn = s := by
  cases hp : s.players[turn.player]? with
  | none => simp [closeTurn, hp]
  | some player =>
    have hcond : ¬ (player.running = true ∧ player.generation = turn.generation) :=
      fun hc => h ⟨player, hp, hc.1, hc.2⟩
    simp [closeTurn, hp, hcond]

/-- The end of showing a segment: a timer is armed if the player is still in the turn. -/
lemma arm_eq_closeTurn (turn : Turn α) (s : Stage α) :
    (whenCurrent turn.player turn.generation fun _ => do
      let t ← arm turn.segment.duration turn.player turn.generation
      withPlayer turn.player fun player => setPlayer turn.player { player with timer := some t }) s
    = .ok ⟨⟩ (s.closeTurn turn) := by
  by_cases h : s.IsCurrent turn.player turn.generation
  · obtain ⟨player, hp, hrun, hgen⟩ := h
    rw [closeTurn_of_current hp hrun hgen, ← hgen, whenCurrent_of_current hp hrun]
    simp [arm, note_apply, noted, withPlayer, hp, setPlayer, armedFor, hgen]
  · rw [whenCurrent_of_not_current h, closeTurn_of_not_current h]

/-- Showing a segment is to announce it, to run the listener, and to end the turn. -/
lemma step_eq (w : Wiring α) (depth : Nat) (hp : s.players[p]? = some player)
    (hrun : player.running = true) {segment : Segment α}
    (hseg : player.timeline[player.index]? = some segment) :
    step w (react w depth) p player.generation s =
      endTurn w depth ⟨p, player.generation, segment⟩
        (react w depth (some p) (replies w player player.index segment)
          { s with
            players := s.players.set p { player with steps := player.steps + 1 }
            log := s.log ++ [⟨s.clock, announcement player player.index segment⟩] }) := by
  rw [step, whenCurrent_of_current hp hrun, hseg]
  have hannounce : announceStep w (react w depth) p player.index segment s =
      react w depth (some p) (replies w player player.index segment)
        { s with
          players := s.players.set p { player with steps := player.steps + 1 }
          log := s.log ++ [⟨s.clock, announcement player player.index segment⟩] } := by
    rw [announceStep, withPlayer_of_some hp]
    simp [setPlayer, note_apply, noted, replies, announcement]
  -- what the listener ends with decides whether the turn closes or the player is stopped
  simp only [Playback.bind_apply, Playback.tryCatch_apply, hannounce]
  generalize react w depth (some p) _ _ = result
  cases result with
  | ok _ s' => exact arm_eq_closeTurn ⟨p, player.generation, segment⟩ s'
  | error fault s' =>
    simp only [endTurn]
    cases stop w (react w depth) p s' <;> rfl

/-- Starting a player that has segments, once it is stopped, is to open a turn at the first segment,
to run the listener, and to end the turn. -/
lemma start_of_stopped {s' : Stage α} (hstop : stop w (react w depth) p s = .ok ⟨⟩ s')
    (hp : s'.players[p]? = some player) {segment : Segment α}
    (hseg : player.timeline[0]? = some segment) :
    start w (react w depth) p s =
      endTurn w depth ⟨p, player.generation + 1, segment⟩
        (react w depth (some p) (replies w player 0 segment) (s'.beginTurn p player segment)) := by
  have hne : player.timeline.isEmpty = false := by
    cases h : player.timeline with
    | nil => simp [h] at hseg
    | cons _ _ => rfl
  let begun : Player α := { player with
    running := true, index := 0, generation := player.generation + 1 }
  have hbegun : begun.timeline[begun.index]? = some segment := hseg
  rw [start]
  simp only [Playback.bind_apply, hstop, withPlayer_of_some hp, hne, Bool.not_false,
    if_true, setPlayer, Playback.modify_apply, note_apply, noted]
  refine (step_eq w depth (getElem?_set_player hp begun) rfl hbegun).trans ?_
  simp [begun, List.set_set, beginTurn, Player.begun, replies, announcement]

omit [Scalar α] in
@[simp] lemma stopPlayer_lights (s : Stage α) (p : Nat) : (s.stopPlayer p).lights = s.lights := by
  unfold stopPlayer
  split <;> rfl

omit [Scalar α] in
lemma getElem?_stopPlayer_ne {q : Nat} (hpq : p ≠ q) (s : Stage α) :
    (s.stopPlayer p).players[q]? = s.players[q]? := by
  unfold stopPlayer
  split
  · rfl
  · exact List.getElem?_set_ne hpq

omit [Scalar α] in
lemma getElem?_stopPlayer (hp : s.players[p]? = some player) :
    (s.stopPlayer p).players[p]? = some player.halted := by
  simp only [stopPlayer, hp, getElem?_set_player hp]

/-- Starting a player that has segments. -/
lemma start_eq (hw : w.QuietResets) (depth : Nat) (hp : s.players[p]? = some player)
    {segment : Segment α} (hseg : player.timeline[0]? = some segment) :
    start w (react w depth) p s =
      endTurn w depth ⟨p, player.generation + 2, segment⟩
        (react w depth (some p) (replies w player.halted 0 segment)
          ((s.stopPlayer p).beginTurn p player.halted segment)) :=
  start_of_stopped (stop_eq hw depth p s) (getElem?_stopPlayer hp) hseg

lemma start_of_empty (hw : w.QuietResets) (depth : Nat) (hp : s.players[p]? = some player)
    (hempty : player.timeline = []) :
    start w (react w depth) p s = .ok ⟨⟩ (s.stopPlayer p) := by
  simp [start, stop_eq hw, withPlayer, getElem?_stopPlayer hp, halted, hempty]

lemma start_of_none (hw : w.QuietResets) (depth : Nat) (hp : s.players[p]? = none) :
    start w (react w depth) p s = .ok ⟨⟩ s := by
  simp [start, stop_eq hw, withPlayer, stopPlayer, hp]

/-- Moving a player on is to open a turn at its next segment, to run the listener, and to end the
turn. -/
lemma advance_eq (w : Wiring α) (depth : Nat) (hp : s.players[p]? = some player)
    (hrun : player.running = true) {segment : Segment α}
    (hseg : player.timeline[player.nextIndex]? = some segment) :
    advance w (react w depth) p player.generation s =
      endTurn w depth ⟨p, player.generation, segment⟩
        (react w depth (some p) (replies w player player.nextIndex segment)
          (s.nextTurn p player segment)) := by
  rw [advance, whenCurrent_of_current hp hrun]
  let turned : Player α := { player with index := player.nextIndex }
  have hturned : turned.timeline[turned.index]? = some segment := hseg
  simp only [Playback.bind_apply, setPlayer, Playback.modify_apply]
  have hrunning : turned.running = true := hrun
  have hstep := step_eq (s := { s with players := s.players.set p turned }) w depth
    (getElem?_set_player hp turned) hrunning hturned
  refine hstep.trans ?_
  simp [turned, List.set_set, nextTurn, moved, replies, announcement]

lemma advance_of_not_current (h : ¬ s.IsCurrent p generation) (depth : Nat) :
    advance w (react w depth) p generation s = .ok ⟨⟩ s :=
  whenCurrent_of_not_current h _

end Player

end Seamark
