import Seamark.Proofs.Playback.Runs

/-!
# Listeners that fail

A listener that never calls back can still fail, when a segment is announced or at a reset.  Then
each operation of a player has one of two ends (`ending`): a turn whose listener fails is left by
stopping the player, and a player whose listener fails at the reset is stopped all the same, but
does not report it (`stopped`).  Whatever fails, no timer is lost: a stage stays sound.
-/

namespace Seamark

variable {α : Type} {β γ : Type}

/-- The listeners do nothing but fail: they never call back. -/
structure Wiring.OnlyFails (w : Wiring α) : Prop where
  /-- At the start of a segment. -/
  steps : ∀ tag call index segment,
    ∀ action ∈ (w.scriptOf tag).onStep call index segment, ∃ fault, action = .fail fault
  /-- At a reset. -/
  resets : ∀ tag call, ∀ action ∈ (w.scriptOf tag).onReset call, ∃ fault, action = .fail fault

/-- The fault of a listener that only fails, from the actions that it is to do. -/
def faultOf? (depth : Nat) : List Action → Option Fault
  | .fail fault :: _ => some (if depth = 0 then .tooDeep else fault)
  | _ => none

/-- The end of a playback, by a fault if there is one. -/
def Playback.ending (fault? : Option Fault) (s : Stage α) : EStateM.Result Fault (Stage α) Unit :=
  match fault? with
  | none => .ok ⟨⟩ s
  | some fault => .error fault s

@[simp] lemma Playback.stageOf_ending (fault? : Option Fault) (s : Stage α) :
    stageOf (ending fault? s) = s := by
  cases fault? <;> rfl

namespace Stage

open Playback

/-- The fault of a player's listener at its next reset. -/
def resetFault? (w : Wiring α) (depth : Nat) (player : Player α) : Option Fault :=
  if player.hearsReset then faultOf? depth ((w.scriptOf player.tag).onReset (player.resets + 1))
  else none

/-- The events of stopping a player: one whose listener fails at the reset does not report. -/
def partingsOf (w : Wiring α) (depth : Nat) (s : Stage α) (player : Player α) : List (Event α) :=
  s.partings { player with running := player.running && (resetFault? w depth player).isNone }

/-- The stage after a player was stopped whose listener may fail at the reset. -/
def stopped (w : Wiring α) (depth : Nat) (s : Stage α) (p : Nat) : Stage α :=
  match s.players[p]? with
  | none => s
  | some player =>
    { s with
      timers := player.callOff s.timers
      players := s.players.set p player.halted
      log := s.log ++ (s.partingsOf w depth player).map (⟨s.clock, ·⟩) }

section

variable (w : Wiring α) (depth : Nat) (s : Stage α) (p : Nat)

/-- A failing listener makes a difference to the log only. -/
lemma stopped_eq_stopPlayer :
    s.stopped w depth p = { s.stopPlayer p with log := (s.stopped w depth p).log } := by
  cases hp : s.players[p]? <;> simp [stopped, stopPlayer, hp]

@[simp] lemma stopped_players : (s.stopped w depth p).players = (s.stopPlayer p).players := by
  rw [stopped_eq_stopPlayer]

@[simp] lemma stopped_timers : (s.stopped w depth p).timers = (s.stopPlayer p).timers := by
  rw [stopped_eq_stopPlayer]

@[simp] lemma stopped_lights : (s.stopped w depth p).lights = s.lights := by
  rw [stopped_eq_stopPlayer]
  exact Player.stopPlayer_lights s p

@[simp] lemma stopped_clock : (s.stopped w depth p).clock = s.clock := by
  unfold stopped
  split <;> rfl

end

variable {w : Wiring α} {depth p : Nat} {s : Stage α} {player : Player α} {segment : Segment α}

lemma stopped_of_none (hp : s.players[p]? = none) (w : Wiring α) (depth : Nat) :
    s.stopped w depth p = s := by
  simp [stopped, hp]

lemma stopped_of_some (hp : s.players[p]? = some player) (w : Wiring α) (depth : Nat) :
    s.stopped w depth p = { s with
      timers := player.callOff s.timers
      players := s.players.set p player.halted
      log := s.log ++ (s.partingsOf w depth player).map (⟨s.clock, ·⟩) } := by
  simp [stopped, hp]

lemma getElem?_stopped (hp : s.players[p]? = some player) (w : Wiring α) (depth : Nat) :
    (s.stopped w depth p).players[p]? = some player.halted := by
  rw [stopped_players, Player.getElem?_stopPlayer hp]

variable [Scalar α]

/-- The fault of a player's listener at its next announcement. -/
def stepFault? (w : Wiring α) (depth : Nat) (player : Player α) (index : Nat)
    (segment : Segment α) : Option Fault :=
  faultOf? depth (replies w player index segment)

/-- The end of a turn whose player is still in it: a timer is armed, or the fault of the listener
leaves the stopped player. -/
def closed (w : Wiring α) (depth : Nat) (turn : Turn α) (player : Player α)
    (fault? : Option Fault) (s : Stage α) : EStateM.Result Fault (Stage α) Unit :=
  match fault? with
  | none => .ok ⟨⟩ (s.armedFor turn player)
  | some fault =>
    .error ((resetFault? w depth player).getD fault) (s.stopped w depth turn.player)

/-- A listener that only fails changes nothing. -/
lemma react_eq_ending {actions : List Action}
    (hfails : ∀ action ∈ actions, ∃ fault, action = .fail fault) (depth : Nat)
    (caller : Option Nat) (s : Stage α) :
    react w depth caller actions s = ending (faultOf? depth actions) s := by
  cases actions with
  | nil => rfl
  | cons action actions =>
    obtain ⟨fault, rfl⟩ := hfails action (by simp)
    cases depth <;> rfl

lemma react_replies (hw : w.OnlyFails) (depth : Nat) (caller : Option Nat) (player : Player α)
    (index : Nat) (segment : Segment α) (s : Stage α) :
    react w depth caller (replies w player index segment) s =
      ending (stepFault? w depth player index segment) s :=
  react_eq_ending (hw.steps player.tag _ index segment) depth caller s

end Stage

namespace Player

open Stage Playback

variable [Scalar α] {w : Wiring α} {s : Stage α} {p : Nat} {player : Player α}
  {segment : Segment α} {turn : Turn α} (hw : w.OnlyFails)
include hw

lemma announceReset_eq_ending (depth : Nat) (hp : s.players[p]? = some player) :
    announceReset w (react w depth) p s = ending (resetFault? w depth player) { s with
      players := s.players.set p { player with
        resets := if player.hearsReset then player.resets + 1 else player.resets }
      log := s.log ++ (if player.hearsReset then [.reset player.tag] else []).map
        (⟨s.clock, ·⟩) } := by
  rw [announceReset, withPlayer_of_some hp, resetFault?]
  by_cases hears : player.hearsReset = true
  · simp [hears, setPlayer, note_apply, noted, react_eq_ending (hw.resets _ _)]
  · simp only [if_neg hears, set_player_self hp, List.map_nil, List.append_nil]
    rfl

/-- Stopping a player leaves it stopped, also if its listener fails. -/
lemma stop_eq_ending (depth : Nat) (hp : s.players[p]? = some player) :
    stop w (react w depth) p s =
      ending (resetFault? w depth player) (s.stopped w depth p) := by
  have hreset : ∀ timers log, announceReset w (react w depth) p
      { s with
        players := s.players.set p { player with
          timer := none, running := false, generation := player.generation + 1 }
        timers := timers
        log := log } = ending (resetFault? w depth player) { s with
      players := s.players.set p player.halted
      timers := timers
      log := log ++ (if player.hearsReset then [.reset player.tag] else []).map
        (⟨s.clock, ·⟩) } := by
    intro timers log
    rw [announceReset_eq_ending hw depth (getElem?_set_player hp _)]
    simp [List.set_set, halted, resetFault?]
  rw [stop, withPlayer_of_some hp]
  -- a fault at the reset keeps the player from reporting that it stopped
  cases ht : player.timer with
  | none =>
    cases hfault : resetFault? w depth player <;> cases hrun : player.running <;>
      simp [setPlayer, hreset, hfault, ending, note_apply, noted, stopped, hp, partingsOf,
        partings, ht, hrun, callOff]
  | some t =>
    cases hfault : resetFault? w depth player <;> cases hrun : player.running <;>
      simp [setPlayer, cancel_apply, hreset, hfault, ending, note_apply, noted, stopped, hp,
        partingsOf, partings, ht, hrun, callOff]

omit hw in
lemma stop_of_none (depth : Nat) (hp : s.players[p]? = none) :
    stop w (react w depth) p s = .ok ⟨⟩ s := by
  simp [stop, withPlayer_of_none hp]

/-- The end of a turn in which the player still is. -/
lemma endTurn_eq_closed (depth : Nat) (hp : s.players[turn.player]? = some player)
    (hrun : player.running = true) (hgen : player.generation = turn.generation)
    (fault? : Option Fault) :
    endTurn w depth turn (ending fault? s) = closed w depth turn player fault? s := by
  cases fault? with
  | none => simp only [ending, endTurn, closed, closeTurn_of_current hp hrun hgen]
  | some fault =>
    simp only [ending, endTurn, closed, stop_eq_ending hw depth hp]
    cases resetFault? w depth player <;> rfl

/-- Starting a player that has segments. -/
lemma start_eq_closed (depth : Nat) (hp : s.players[p]? = some player)
    (hseg : player.timeline[0]? = some segment) (hreset : resetFault? w depth player = none) :
    start w (react w depth) p s =
      closed w depth ⟨p, player.generation + 2, segment⟩ player.halted.begun
        (stepFault? w depth player.halted 0 segment)
        ((s.stopped w depth p).beginTurn p player.halted segment) := by
  have hstop := stop_eq_ending hw depth hp
  rw [hreset] at hstop
  have hhalted := getElem?_stopped hp w depth
  rw [start_of_stopped hstop hhalted hseg, react_replies hw]
  exact endTurn_eq_closed hw depth (getElem?_set_player hhalted _) rfl rfl _

/-- A start whose reset fails only stops the player. -/
lemma start_of_resetFault (depth : Nat) {fault : Fault} (hp : s.players[p]? = some player)
    (hreset : resetFault? w depth player = some fault) :
    start w (react w depth) p s = .error fault (s.stopped w depth p) := by
  have hstop := stop_eq_ending hw depth hp
  rw [hreset] at hstop
  simp [start, hstop, ending]

/-- A player without segments is only stopped when it is started. -/
lemma start_eq_ending_of_empty (depth : Nat) (hp : s.players[p]? = some player)
    (hempty : player.timeline = []) :
    start w (react w depth) p s =
      ending (resetFault? w depth player) (s.stopped w depth p) := by
  have hhalted := getElem?_stopped hp w depth
  have hstop := stop_eq_ending hw depth hp
  cases hreset : resetFault? w depth player with
  | none =>
    rw [hreset] at hstop
    simp [start, hstop, ending, withPlayer_of_some hhalted, halted, hempty]
  | some fault =>
    rw [start_of_resetFault hw depth hp hreset]
    rfl

/-- Moving a player on. -/
lemma advance_eq_closed (depth : Nat) (hp : s.players[p]? = some player)
    (hrun : player.running = true) (hseg : player.timeline[player.nextIndex]? = some segment) :
    advance w (react w depth) p player.generation s =
      closed w depth ⟨p, player.generation, segment⟩ player.moved
        (stepFault? w depth player player.nextIndex segment) (s.nextTurn p player segment) := by
  rw [advance_eq w depth hp hrun hseg, react_replies hw]
  have hrunning : player.moved.running = true := hrun
  exact endTurn_eq_closed hw depth (getElem?_set_player hp player.moved) hrunning rfl _

end Player

/-! ### Whatever fails, the stage stays sound -/

namespace Sound

variable {turns : List (Turn α)} {s s' : Stage α}

/-- Soundness is about players and timers only. -/
lemma congr (h : Sound ⟨turns, s⟩) (hplayers : s'.players = s.players)
    (htimers : s'.timers = s.timers) : Sound ⟨turns, s'⟩ where
  owner ht := by
    simp only [hplayers]
    exact h.owner (by simpa only [htimers] using ht)
  turnOwner hturn := by
    simp only [hplayers]
    exact h.turnOwner hturn
  distinct := h.distinct
  player hp := by
    simp only [htimers]
    exact h.player (by simpa only [hplayers] using hp)

/-- No move makes a stage unsound, whatever is asked for. -/
lemma of_move [Scalar α] {m m' : Scene α} (h : Sound m) (hmove : Move (fun _ => True) m m') :
    Sound m' :=
  hmove.sound h

/-- There is a segment for a running player to move on to. -/
lemma exists_next (h : Sound ⟨turns, s⟩) {p : Nat} {player : Player α}
    (hp : s.players[p]? = some player) (hrun : player.running = true) :
    ∃ segment, player.timeline[player.nextIndex]? = some segment := by
  have hpos := (h.player hp).inRange hrun
  exact ⟨_, List.getElem?_eq_getElem (Nat.mod_lt _ (by omega))⟩

lemma stopped (h : Sound ⟨turns, s⟩) (w : Wiring α) (depth p : Nat) :
    Sound ⟨turns, s.stopped w depth p⟩ :=
  (h.stopPlayer p).congr (by simp) (by simp)

/-- A turn that ends leaves a stage sound. -/
lemma closed [Scalar α] {turn : Turn α} {player : Player α} (h : Sound ⟨turn :: turns, s⟩)
    (hp : s.players[turn.player]? = some player) (hrun : player.running = true)
    (hgen : player.generation = turn.generation) (w : Wiring α) (depth : Nat)
    (fault? : Option Fault) :
    Sound ⟨turns, Playback.stageOf (Stage.closed w depth turn player fault? s)⟩ := by
  cases fault? with
  | none => exact h.of_move (.armed turns hp hrun hgen)
  | some fault =>
    refine (h.stopped w depth turn.player).of_move (.left turns ?_)
    rintro ⟨other, hother, hstill⟩
    rw [Stage.stopped_players] at hother
    exact Player.not_isCurrent_stopPlayer s turn.player turn.generation ⟨other, hother, hstill⟩

end Sound

/-- A playback keeps what holds of the stage, also if it ends with a fault. -/
def Playback.Keeps (P : Stage α → Prop) (m : Playback α β) : Prop :=
  ∀ s, P s → P (stageOf (m s))

namespace Playback

variable {P : Stage α → Prop}

lemma keeps_pure (b : β) : (pure b : Playback α β).Keeps P :=
  fun _ h => h

lemma keeps_throw (fault : Fault) : (throw fault : Playback α β).Keeps P :=
  fun _ h => h

lemma keeps_get : (get : Playback α (Stage α)).Keeps P :=
  fun _ h => h

lemma Keeps.bind {m : Playback α β} {f : β → Playback α γ} (hm : m.Keeps P)
    (hf : ∀ b, (f b).Keeps P) : (m >>= f).Keeps P := by
  intro s h
  have hfirst := hm s h
  rw [bind_apply]
  cases hs : m s with
  | ok b s' =>
    rw [hs] at hfirst
    exact hf b s' hfirst
  | error fault s' =>
    rw [hs] at hfirst
    exact hfirst

lemma Keeps.forM {xs : List β} {f : β → Playback α Unit} (hf : ∀ x, (f x).Keeps P) :
    (xs.forM f).Keeps P := by
  induction xs with
  | nil => exact keeps_pure _
  | cons x xs ih =>
    show (f x >>= fun _ => xs.forM f).Keeps P
    exact (hf x).bind fun _ => ih

lemma keeps_ending {m : Playback α Unit} (h : ∀ s, ∃ fault?, m s = ending fault? s) :
    m.Keeps P := by
  intro s hs
  obtain ⟨fault?, hm⟩ := h s
  rwa [hm, stageOf_ending]

/-- What holds after an operation holds after its fault was noted. -/
lemma stageOf_noting (P : Stage α → Prop) {m : Playback α Unit} {s : Stage α}
    (h : P (stageOf (m s))) (hraised : ∀ s fault, P s → P (s.noted (.raised fault))) :
    P (stageOf (Stage.noting m s)) := by
  rw [Stage.noting, tryCatch_apply]
  cases hs : m s with
  | ok _ s' =>
    rw [hs] at h
    exact h
  | error fault s' =>
    rw [hs] at h
    exact hraised s' fault h

lemma sound_noting {turns : List (Turn α)} {m : Playback α Unit} {s : Stage α}
    (h : Sound ⟨turns, stageOf (m s)⟩) : Sound ⟨turns, stageOf (Stage.noting m s)⟩ :=
  stageOf_noting (fun s => Sound ⟨turns, s⟩) h fun _ _ h => h.congr rfl rfl

lemma keepsSound_note {turns : List (Turn α)} (event : Event α) :
    (Stage.note event).Keeps fun s => Sound ⟨turns, s⟩ :=
  fun _ h => h.congr rfl rfl

lemma keepsSound_setLights {turns : List (Turn α)} (lights : Stage α → Table Nat) :
    (modify fun s => { s with lights := lights s } : Playback α PUnit).Keeps
      fun s => Sound ⟨turns, s⟩ :=
  fun _ h => h.congr rfl rfl

end Playback

open Playback

variable [Scalar α] {turns : List (Turn α)} {w : Wiring α} (hw : w.OnlyFails)
include hw

namespace Player

open Stage

lemma keepsSound_stop (depth p : Nat) :
    (stop w (react w depth) p).Keeps fun s => Sound ⟨turns, s⟩ := by
  intro s h
  cases hp : s.players[p]? with
  | none => rwa [stop_of_none depth hp]
  | some player =>
    rw [stop_eq_ending hw depth hp, stageOf_ending]
    exact h.stopped w depth p

lemma keepsSound_start (depth p : Nat) :
    (start w (react w depth) p).Keeps fun s => Sound ⟨turns, s⟩ := by
  intro s h
  cases hp : s.players[p]? with
  | none => simpa [start, stop_of_none depth hp, withPlayer_of_none hp] using h
  | some player =>
    have hhalted := getElem?_stopped hp w depth
    cases hseg : player.timeline[0]? with
    | none =>
      rw [start_eq_ending_of_empty hw depth hp (by simpa using hseg), stageOf_ending]
      exact h.stopped w depth p
    | some segment =>
      cases hreset : resetFault? w depth player with
      | some fault =>
        rw [start_of_resetFault hw depth hp hreset]
        exact h.stopped w depth p
      | none =>
        rw [start_eq_closed hw depth hp hseg hreset]
        have hbegun := (h.stopped w depth p).of_move (.begun turns hhalted rfl hseg)
        exact hbegun.closed (getElem?_set_player hhalted _) rfl rfl w depth _

/-- A timer that moves a player on keeps a stage sound. -/
lemma sound_advance {s : Stage α} {t : Nat} {timer : Timer α} (h : Sound ⟨[], s⟩)
    (ht : s.timers[t]? = some timer) (hstate : timer.state ≠ .fired) (depth : Nat) :
    Sound ⟨[], stageOf (advance w (react w depth) timer.player timer.generation
      (s.withFired t timer))⟩ := by
  by_cases hcurrent : s.IsCurrent timer.player timer.generation
  · obtain ⟨player, hp, hrun, hgen⟩ := hcurrent
    obtain ⟨segment, hseg⟩ := h.exists_next hp hrun
    have hmoved := h.of_move (.moved ht hstate hp hrun hgen hseg)
    rw [← hgen, advance_eq_closed (s := s.withFired t timer) hw depth hp hrun hseg, hgen]
    exact hmoved.closed (getElem?_set_player (s := s.withFired t timer) hp _) hrun hgen w depth _
  · rw [advance_of_not_current (s := s.withFired t timer) hcurrent]
    exact h.of_move (.late [] ht hcurrent)

end Player

namespace Manager

open Stage

lemma keepsSound_stopLight (depth : Nat) (light : String) :
    (stopLight w (react w depth) light).Keeps fun s => Sound ⟨turns, s⟩ := by
  refine keeps_get.bind fun s => ?_
  split
  · exact keeps_pure _
  · exact (keepsSound_setLights _).bind fun _ => Player.keepsSound_stop hw depth _

lemma keepsSound_stopAll (depth : Nat) :
    (stopAll w (react w depth)).Keeps fun s => Sound ⟨turns, s⟩ :=
  keeps_get.bind fun _ => (keepsSound_setLights _).bind fun _ =>
    .forM fun p => Player.keepsSound_stop hw depth p

lemma keepsSound_announceBlank (depth : Nat) (tag : String) :
    (announceBlank w (react w depth) tag).Keeps fun s => Sound ⟨turns, s⟩ :=
  (keepsSound_note (.reset tag)).bind fun _ =>
    keeps_ending fun s => ⟨_, react_eq_ending (hw.resets tag 1) depth none s⟩

lemma keepsSound_showTimeline (depth : Nat) (light : String) (ts : Timeline α) (tag : String)
    (hearsReset : Bool) : (showTimeline w (react w depth) light ts tag hearsReset).Keeps
      fun s => Sound ⟨turns, s⟩ := by
  have hadded : ∀ player : Player α, player.IsFresh → (addPlayer player).Keeps
      fun s => Sound ⟨turns, s⟩ :=
    fun player hfresh s h =>
      h.of_move (.added turns s hfresh ⟨light, none, tag, hearsReset, trivial⟩)
  have hstarted : ∀ p, (do
      Player.start w (react w depth) p
      if (← get).lights.get? light != some p then
        Player.stop w (react w depth) p : Playback α Unit).Keeps fun s => Sound ⟨turns, s⟩ := by
    refine fun p => (Player.keepsSound_start hw depth p).bind fun _ => keeps_get.bind fun s => ?_
    split
    · exact Player.keepsSound_stop hw depth p
    · exact keeps_pure _
  refine (hadded _ ⟨rfl, rfl, rfl⟩).bind fun p => keeps_get.bind fun s =>
    (keepsSound_setLights _).bind fun _ => ?_
  dsimp only
  split
  · exact (Player.keepsSound_stop hw depth _).bind fun _ => hstarted p
  · exact hstarted p

lemma keepsSound_startLight (depth : Nat) (light : String) (code : Option String) (tag : String)
    (hearsReset : Bool) : (startLight w (react w depth) light code tag hearsReset).Keeps
      fun s => Sound ⟨turns, s⟩ := by
  unfold startLight
  split
  · exact keeps_throw _
  · refine (keepsSound_stopLight hw depth light).bind fun _ => ?_
    cases hearsReset with
    | true => exact (keepsSound_announceBlank hw depth tag).bind fun _ => keeps_pure _
    | false => exact keeps_pure _
  · exact (keepsSound_showTimeline hw depth light _ tag hearsReset).bind fun _ => keeps_pure _

end Manager

namespace Stage

lemma keepsSound_perform (depth : Nat) (caller : Option Nat) (action : Action) :
    (perform w depth caller action).Keeps fun s => Sound ⟨turns, s⟩ := by
  cases depth with
  | zero => exact keeps_throw _
  | succ depth =>
    cases action with
    | fail fault => exact keeps_throw _
    | start =>
      cases caller with
      | none => exact keeps_pure _
      | some p => exact Player.keepsSound_start hw depth p
    | stop =>
      cases caller with
      | none => exact keeps_pure _
      | some p => exact Player.keepsSound_stop hw depth p
    | startLight light code tag hearsReset =>
      exact (Manager.keepsSound_startLight hw depth light code tag hearsReset).bind
        fun shown => keepsSound_note _
    | stopLight light => exact Manager.keepsSound_stopLight hw depth light
    | stopAll => exact Manager.keepsSound_stopAll hw depth

/-- A timer that runs keeps a stage sound. -/
lemma sound_firedOne {s : Stage α} {t : Nat} {timer : Timer α} (h : Sound ⟨[], s⟩)
    (ht : s.timers[t]? = some timer) (hstate : timer.state ≠ .fired) (depth : Nat) :
    Sound ⟨[], s.firedOne w depth t timer⟩ :=
  sound_noting (Player.sound_advance hw h ht hstate depth)

lemma sound_runDue {s : Stage α} (h : Sound ⟨[], s⟩) (depth : Nat) (target : α) (firings : Nat) :
    Sound ⟨[], stageOf (runDue w depth target firings s)⟩ := by
  induction firings generalizing s with
  | zero => exact h
  | succ firings ih =>
    cases hnext : nextDue? target s.timers with
    | none => rwa [runDue_of_none hnext]
    | some entry =>
      obtain ⟨ht, hpending, -⟩ := nextDue?_eq_some hnext
      have hticked : Sound ⟨[], { s with clock := greater s.clock entry.1.due }⟩ :=
        h.congr rfl rfl
      rw [runDue_of_some hnext]
      exact ih (sound_firedOne hw hticked ht (by simp [hpending]) depth)

/-- What every timer that runs keeps, the passing of time keeps. -/
lemma stageOf_runDue (P : Stage α → Prop) {depth : Nat}
    (hticked : ∀ s clock, P s → P { s with clock := clock })
    (hfired : ∀ s t timer, Sound ⟨[], s⟩ → P s → s.timers[t]? = some timer →
      P (s.firedOne w depth t timer))
    {s : Stage α} (hsound : Sound ⟨[], s⟩) (h : P s) (target : α) (firings : Nat) :
    P (stageOf (runDue w depth target firings s)) := by
  induction firings generalizing s with
  | zero => exact h
  | succ firings ih =>
    cases hnext : nextDue? target s.timers with
    | none => rwa [runDue_of_none hnext]
    | some entry =>
      obtain ⟨ht, hpending, -⟩ := nextDue?_eq_some hnext
      have hlater : Sound ⟨[], { s with clock := greater s.clock entry.1.due }⟩ :=
        hsound.congr rfl rfl
      rw [runDue_of_some hnext]
      exact ih (sound_firedOne hw hlater ht (by simp [hpending]) depth)
        (hfired _ _ _ hlater (hticked s _ h) ht)

lemma sound_after {s : Stage α} (h : Sound ⟨[], s⟩) (limits : Limits) (operation : Operation α) :
    Sound ⟨[], s.after w operation limits⟩ := by
  cases operation with
  | act action =>
    rw [after_eq_stageOf]
    exact sound_noting (keepsSound_perform hw _ _ action s h)
  | advance time =>
    rw [after_advance]
    exact (sound_runDue hw h limits.depth _ limits.firings).congr rfl rfl
  | fire t =>
    rcases after_fire w limits s t with hnothing | ⟨timer, ht, hstate, hfired⟩
    · rw [hnothing]
      exact h.congr rfl rfl
    · rw [hfired]
      exact sound_firedOne hw h ht hstate limits.depth

/-- Along every run a stage stays sound, whichever listeners fail. -/
theorem sound_run {s : Stage α} (h : Sound ⟨[], s⟩) (limits : Limits)
    (operations : List (Operation α)) : Sound ⟨[], s.run w limits operations⟩ := by
  induction operations generalizing s with
  | nil => exact h
  | cons operation operations ih => exact ih (sound_after hw h limits operation)

end Stage

end Seamark
