import Seamark.Proofs.Playback.Effects

/-!
# A stage as a machine

However the listeners call each other, a stage changes by a few kinds of moves. A turn is open from
the announcement of a segment until its timer is armed or its player has left it; the listener runs
in between, and what it does opens and closes turns inside. So the open turns are a stack, and a
scene is a stage with such a stack. Every operation is a path of moves that leaves the stack as it
was. What every move preserves holds of every run.
-/

namespace Seamark

variable {α : Type} [Scalar α] {β γ : Type}

/-- A stage in the middle of calls: a stage with open turns. -/
structure Scene (α : Type) where
  /-- The open turns, the innermost first. -/
  turns : List (Turn α)
  /-- The stage. -/
  stage : Stage α

/-- An event that tells nothing of starting, stopping or showing a segment. -/
def Event.IsAside : Event α → Prop
  | .stepped .. => False
  | .playing .. => False
  | .stopped _ => False
  | _ => True

/-- What a player is when it is made. -/
def Player.IsFresh (player : Player α) : Prop :=
  player.running = false ∧ player.timer = none ∧ player.generation = 0

namespace Stage

/-- The stage after a timer ran. -/
def withFired (s : Stage α) (t : Nat) (timer : Timer α) : Stage α :=
  { s with timers := s.timers.set t { timer with state := .fired } }

end Stage

/-- What can happen to a stage in one move, when only some actions are asked for. -/
inductive Move (asked : Action → Prop) : Scene α → Scene α → Prop
  /-- A player is stopped. -/
  | stopped (turns : List (Turn α)) (s : Stage α) (p : Nat) :
      Move asked ⟨turns, s⟩ ⟨turns, s.stopPlayer p⟩
  /-- A stopped player starts and announces its first segment. -/
  | begun (turns : List (Turn α)) {s : Stage α} {p : Nat} {player : Player α} {segment : Segment α}
      (hp : s.players[p]? = some player) (hrun : player.running = false)
      (hseg : player.timeline[0]? = some segment) :
      Move asked ⟨turns, s⟩
        ⟨⟨p, player.generation + 1, segment⟩ :: turns, s.beginTurn p player segment⟩
  /-- A timer runs and its player announces the next segment. -/
  | moved {s : Stage α} {t : Nat} {timer : Timer α} {player : Player α} {segment : Segment α}
      (ht : s.timers[t]? = some timer) (hstate : timer.state ≠ .fired)
      (hp : s.players[timer.player]? = some player) (hrun : player.running = true)
      (hgen : player.generation = timer.generation)
      (hseg : player.timeline[player.nextIndex]? = some segment) :
      Move asked ⟨[], s⟩
        ⟨[⟨timer.player, timer.generation, segment⟩],
          (s.withFired t timer).nextTurn timer.player player segment⟩
  /-- A timer runs whose player is no longer in its generation. -/
  | late (turns : List (Turn α)) {s : Stage α} {t : Nat} {timer : Timer α}
      (ht : s.timers[t]? = some timer) (hcurrent : ¬ s.IsCurrent timer.player timer.generation) :
      Move asked ⟨turns, s⟩ ⟨turns, s.withFired t timer⟩
  /-- A turn closes and its player arms a timer. -/
  | armed (turns : List (Turn α)) {s : Stage α} {turn : Turn α} {player : Player α}
      (hp : s.players[turn.player]? = some player) (hrun : player.running = true)
      (hgen : player.generation = turn.generation) :
      Move asked ⟨turn :: turns, s⟩ ⟨turns, s.armedFor turn player⟩
  /-- A turn closes that its player has left. -/
  | left (turns : List (Turn α)) {s : Stage α} {turn : Turn α}
      (hcurrent : ¬ s.IsCurrent turn.player turn.generation) :
      Move asked ⟨turn :: turns, s⟩ ⟨turns, s⟩
  /-- An event is noted. -/
  | noted (turns : List (Turn α)) (s : Stage α) (event : Event α) (haside : event.IsAside) :
      Move asked ⟨turns, s⟩ ⟨turns, s.noted event⟩
  /-- The clock changes. -/
  | ticked (turns : List (Turn α)) (s : Stage α) (clock : α) :
      Move asked ⟨turns, s⟩ ⟨turns, { s with clock := clock }⟩
  /-- A player is made for a light that is to be shown. -/
  | added (turns : List (Turn α)) (s : Stage α) {player : Player α} (hfresh : player.IsFresh)
      (hasked : ∃ light code tag hearsReset, asked (.startLight light code tag hearsReset)) :
      Move asked ⟨turns, s⟩ ⟨turns, { s with players := s.players ++ [player] }⟩
  /-- Other lights are on show. -/
  | relit (turns : List (Turn α)) (s : Stage α) (lights : Table Nat) :
      Move asked ⟨turns, s⟩ ⟨turns, { s with lights := lights }⟩

/-- Moves one after the other. -/
abbrev Path (asked : Action → Prop) : Scene α → Scene α → Prop :=
  Relation.ReflTransGen (Move asked)

/-- The listeners do only what may be asked for. -/
def Wiring.Asks (w : Wiring α) (asked : Action → Prop) : Prop :=
  ∀ tag call index segment, ∀ action ∈ (w.scriptOf tag).onStep call index segment, asked action

/-- A playback is a path of moves that leaves the open turns as they were. -/
def Playback.IsPath (asked : Action → Prop) (m : Playback α β) : Prop :=
  ∀ turns s, Path asked ⟨turns, s⟩ ⟨turns, Playback.stageOf (m s)⟩

namespace Playback

variable {asked : Action → Prop}

lemma isPath_pure (b : β) : (pure b : Playback α β).IsPath asked :=
  fun _ _ => .refl

lemma isPath_throw (fault : Fault) : (throw fault : Playback α β).IsPath asked :=
  fun _ _ => .refl

lemma IsPath.bind {m : Playback α β} {f : β → Playback α γ} (hm : m.IsPath asked)
    (hf : ∀ b, (f b).IsPath asked) : (m >>= f).IsPath asked := by
  intro turns s
  have hpath := hm turns s
  rw [bind_apply]
  cases hs : m s with
  | ok b s' =>
    rw [hs] at hpath
    exact hpath.trans (hf b turns s')
  | error fault s' =>
    rw [hs] at hpath
    exact hpath

lemma IsPath.forM {xs : List β} {f : β → Playback α Unit} (hf : ∀ x ∈ xs, (f x).IsPath asked) :
    (xs.forM f).IsPath asked := by
  induction xs with
  | nil => exact isPath_pure _
  | cons x xs ih =>
    show (f x >>= fun _ => xs.forM f).IsPath asked
    exact (hf x (by simp)).bind fun _ => ih fun y hy => hf y (by simp [hy])

lemma isPath_get : (get : Playback α (Stage α)).IsPath asked :=
  fun _ _ => .refl

lemma isPath_note (event : Event α) (haside : event.IsAside) :
    (Stage.note event).IsPath asked :=
  fun turns s => .single (.noted turns s event haside)

lemma isPath_setLights (lights : Stage α → Table Nat) :
    (modify fun s => { s with lights := lights s } : Playback α PUnit).IsPath asked :=
  fun turns s => .single (.relit turns s (lights s))

end Playback

/-! ### The operations of a player -/

namespace Player

open Stage Playback

variable {asked : Action → Prop} {w : Wiring α} {depth p : Nat}

lemma isPath_stop (hw : w.QuietResets) (depth p : Nat) :
    (stop w (react w depth) p).IsPath asked := by
  intro turns s
  rw [stop_eq hw]
  exact .single (.stopped turns s p)

omit [Scalar α] in
lemma not_isCurrent_stopPlayer (s : Stage α) (p generation : Nat) :
    ¬ (s.stopPlayer p).IsCurrent p generation := by
  rintro ⟨player, hp, hrun, -⟩
  cases hold : s.players[p]? with
  | none => simp [stopPlayer, hold] at hp
  | some old =>
    rw [getElem?_stopPlayer hold, Option.some.injEq] at hp
    simp [← hp, halted] at hrun

/-- Closing a turn is one move. -/
lemma move_closeTurn (turns : List (Turn α)) (turn : Turn α) (s : Stage α) :
    Move asked ⟨turn :: turns, s⟩ ⟨turns, s.closeTurn turn⟩ := by
  by_cases hcurrent : s.IsCurrent turn.player turn.generation
  · obtain ⟨player, hp, hrun, hgen⟩ := hcurrent
    rw [closeTurn_of_current hp hrun hgen]
    exact .armed turns hp hrun hgen
  · rw [closeTurn_of_not_current hcurrent]
    exact .left turns hcurrent

/-- From the opening of a turn, the listener and the end of the turn are a path that closes it. -/
lemma path_endTurn (hw : w.QuietResets) (turns : List (Turn α)) (turn : Turn α) (s : Stage α)
    {actions : List Action}
    (hreact : (react w depth (some turn.player) actions).IsPath asked) :
    Path asked ⟨turn :: turns, s⟩
      ⟨turns, stageOf (endTurn w depth turn (react w depth (some turn.player) actions s))⟩ := by
  have hpath := hreact (turn :: turns) s
  generalize react w depth (some turn.player) actions s = result at hpath ⊢
  cases result with
  | ok _ s' => exact hpath.tail (move_closeTurn turns turn s')
  | error fault s' =>
    -- a listener that fails stops its player, so the turn is left
    rw [endTurn_error hw]
    exact (hpath.tail (.stopped _ s' turn.player)).tail
      (.left turns (not_isCurrent_stopPlayer s' turn.player turn.generation))

/-- Starting a player stops it and goes on from there, if what its listener does is a path. -/
lemma path_start (hw : w.QuietResets) (hreact : ∀ (p index : Nat) (player : Player α) segment,
      (react w depth (some p) (replies w player index segment)).IsPath asked)
    (turns : List (Turn α)) (s : Stage α) :
    Path asked ⟨turns, s.stopPlayer p⟩ ⟨turns, stageOf (start w (react w depth) p s)⟩ := by
  cases hp : s.players[p]? with
  | none =>
    rw [start_of_none hw depth hp, stopPlayer, hp]
    exact .refl
  | some player =>
    cases hseg : player.timeline[0]? with
    | none =>
      rw [start_of_empty hw depth hp (by simpa using hseg)]
      exact .refl
    | some segment =>
      rw [start_eq hw depth hp hseg]
      exact .head (.begun turns (getElem?_stopPlayer hp) rfl hseg)
        (path_endTurn hw turns _ _ (hreact p 0 player.halted segment))

lemma isPath_start (hw : w.QuietResets) (hreact : ∀ (p index : Nat) (player : Player α) segment,
      (react w depth (some p) (replies w player index segment)).IsPath asked) :
    (start w (react w depth) p).IsPath asked :=
  fun turns s => .head (.stopped turns s p) (path_start hw hreact turns s)

end Player

/-! ### The lights on show -/

namespace Manager

open Stage Playback

variable {asked : Action → Prop} {w : Wiring α} {depth : Nat}

lemma isPath_stopLight (hw : w.QuietResets) (depth : Nat) (light : String) :
    (stopLight w (react w depth) light).IsPath asked := by
  refine isPath_get.bind fun s => ?_
  split
  · exact isPath_pure _
  · exact (isPath_setLights _).bind fun _ => Player.isPath_stop hw depth _

lemma isPath_stopAll (hw : w.QuietResets) (depth : Nat) :
    (stopAll w (react w depth)).IsPath asked := by
  refine isPath_get.bind fun s => (isPath_setLights _).bind fun _ => ?_
  exact IsPath.forM fun p _ => Player.isPath_stop hw depth p

lemma isPath_announceBlank (hw : w.QuietResets) (depth : Nat) (tag : String) :
    (announceBlank w (react w depth) tag).IsPath asked := by
  refine (isPath_note (.reset tag) trivial).bind fun _ => ?_
  rw [hw]
  exact isPath_pure _

/-- Making a player for a light that is to be shown is one move. -/
lemma isPath_addPlayer {light : String} {code : Option String} {tag : String} {hearsReset : Bool}
    (hasked : asked (.startLight light code tag hearsReset)) {player : Player α}
    (hfresh : player.IsFresh) : (addPlayer player).IsPath asked :=
  fun turns s => .single (.added turns s hfresh ⟨light, code, tag, hearsReset, hasked⟩)

variable (hw : w.QuietResets)
  (hreact : ∀ (p index : Nat) (player : Player α) segment,
    (react w depth (some p) (replies w player index segment)).IsPath asked)
include hw hreact

lemma isPath_showTimeline {light : String} {code : Option String} {tag : String}
    {hearsReset : Bool} (hasked : asked (.startLight light code tag hearsReset))
    (ts : Timeline α) : (showTimeline w (react w depth) light ts tag hearsReset).IsPath asked := by
  refine (isPath_addPlayer hasked ⟨rfl, rfl, rfl⟩).bind fun p => isPath_get.bind fun s => ?_
  -- while the player started, another one may have taken its place
  have hstarted : (do
      Player.start w (react w depth) p
      if (← get).lights.get? light != some p then
        Player.stop w (react w depth) p : Playback α Unit).IsPath asked := by
    refine (Player.isPath_start hw hreact).bind fun _ => isPath_get.bind fun s => ?_
    split
    · exact Player.isPath_stop hw depth p
    · exact isPath_pure _
  refine (isPath_setLights _).bind fun _ => ?_
  dsimp only
  split
  · exact (Player.isPath_stop hw depth _).bind fun _ => hstarted
  · exact hstarted

lemma isPath_startLight {light : String} {code : Option String} {tag : String} {hearsReset : Bool}
    (hasked : asked (.startLight light code tag hearsReset)) :
    (startLight w (react w depth) light code tag hearsReset).IsPath asked := by
  unfold startLight
  split
  · exact isPath_throw _
  · refine (isPath_stopLight hw depth light).bind fun _ => ?_
    cases hearsReset with
    | true => exact (isPath_announceBlank hw depth tag).bind fun _ => isPath_pure _
    | false => exact isPath_pure _
  · exact (isPath_showTimeline hw hreact hasked _).bind fun _ => isPath_pure _

end Manager

/-! ### Actions and timers -/

namespace Stage

open Playback

variable {asked : Action → Prop} {w : Wiring α}

/-- Whatever may be asked for is a path, however deeply the listeners call each other. -/
theorem isPath_perform (hw : w.QuietResets) (hasks : w.Asks asked) (depth : Nat)
    (caller : Option Nat) {action : Action} (hasked : asked action) :
    (perform w depth caller action).IsPath asked := by
  induction depth generalizing caller action with
  | zero => exact isPath_throw _
  | succ depth ih =>
    have hreact : ∀ (p index : Nat) (player : Player α) segment,
        (react w depth (some p) (replies w player index segment)).IsPath asked :=
      fun p index player segment => IsPath.forM fun action haction =>
        ih (some p) (hasks player.tag _ index segment action haction)
    cases action with
    | fail fault => exact isPath_throw fault
    | start =>
      cases caller with
      | none => exact isPath_pure _
      | some p => exact Player.isPath_start hw hreact
    | stop =>
      cases caller with
      | none => exact isPath_pure _
      | some p => exact Player.isPath_stop hw depth p
    | startLight light code tag hearsReset =>
      exact (Manager.isPath_startLight hw hreact hasked).bind fun shown => isPath_note _ trivial
    | stopLight light => exact Manager.isPath_stopLight hw depth light
    | stopAll => exact Manager.isPath_stopAll hw depth

lemma isPath_replies (hw : w.QuietResets) (hasks : w.Asks asked) (depth p index : Nat)
    (player : Player α) (segment : Segment α) :
    (react w depth (some p) (replies w player index segment)).IsPath asked :=
  IsPath.forM fun action haction =>
    isPath_perform hw hasks depth (some p) (hasks player.tag _ index segment action haction)

end Stage

end Seamark
