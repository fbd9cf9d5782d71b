import Seamark.Proofs.Playback.Lights
import Seamark.Proofs.Playback.Loop

/-!
# What a light shows

Where listeners only listen, what a light shows is its running player and the time at which the one
pending timer of this player is due (`Shown`). To put the light on show, to take it off or to run
its timer makes of this something that depends on the time and on nothing else on the stage
(`Shown.act`, `Shown.fire`), and what can be heard of it does too. What other lights show stays as
it is.
-/

namespace Seamark

variable {α : Type}

/-- The listeners do nothing when they are called. -/
structure Wiring.Listens (w : Wiring α) : Prop where
  /-- Nothing at a reset. -/
  resets : w.QuietResets
  /-- Nothing at the start of a segment. -/
  steps : ∀ tag call index segment, (w.scriptOf tag).onStep call index segment = []

lemma Wiring.Listens.replies_eq_nil {w : Wiring α} (hw : w.Listens) (player : Player α)
    (index : Nat) (segment : Segment α) : Stage.replies w player index segment = [] :=
  hw.steps player.tag (player.steps + 1) index segment

/-- The light that an action puts on show or takes off. -/
def Action.light? : Action → Option String
  | .startLight light _ _ _ | .stopLight light => some light
  | _ => none

/-- The action puts a light on show and announces it to a listener. -/
def Action.Introduces (light tag : String) (action : Action) : Prop :=
  ∃ code hearsReset, action = .startLight light code tag hearsReset

/-- An event that can be heard: one that does not tell the number of a timer. -/
def Event.isHeard : Event α → Bool
  | .armed _ _ | .cancelled _ => false
  | _ => true

/-- What can be heard of a log. -/
def heard (log : List (Entry α)) : List (Entry α) :=
  log.filter fun entry => entry.event.isHeard

@[simp] lemma heard_append (log log' : List (Entry α)) :
    heard (log ++ log') = heard log ++ heard log' :=
  List.filter_append log log'

/-- The event tells of a light: it names this light, or it was announced to a listener that was
given for it. -/
def Event.TellsOf (light : String) (given : String → Prop) : Event α → Prop
  | .stepped tag _ _ _ | .reset tag => given tag
  | .playing name _ _ | .stopped name => name = light
  | .started other _ => other = light
  | _ => True

/-- What a light shows. -/
structure Shown (α : Type) where
  /-- Its player, without the number of the timer that moves it on. -/
  player : Player α
  /-- The time when this timer runs. -/
  due : α

namespace Shown

/-- What is heard when something is no longer shown. -/
def farewell (clock : α) : Option (Shown α) → List (Entry α)
  | none => []
  | some shown =>
    (if shown.player.hearsReset then [⟨clock, .reset shown.player.tag⟩] else [])
    ++ [⟨clock, .stopped shown.player.name⟩]

variable [Scalar α]

/-- What is heard when a new player starts. -/
def greeting (clock : α) (player : Player α) (segment : Segment α) : List (Entry α) :=
  (if player.hearsReset then [⟨clock, .reset player.tag⟩] else [])
  ++ [⟨clock, .playing player.name player.timeline.length player.timeline.total⟩,
    ⟨clock, Stage.announcement player 0 segment⟩]

/-- What an action makes of what its light shows, and what is heard of this. -/
def act (w : Wiring α) (clock : α) (shown : Option (Shown α)) :
    Action → Option (Shown α) × List (Entry α)
  | .startLight light code tag hearsReset =>
    match w.timelineOf code with
    | .error cause => (shown, [⟨clock, .raised (.compile cause)⟩])
    | .ok [] =>
      (none, farewell clock shown ++ (if hearsReset then [⟨clock, .reset tag⟩] else [])
        ++ [⟨clock, .started light false⟩])
    | .ok (segment :: rest) =>
      let player := Manager.newPlayer light (segment :: rest) tag hearsReset
      (some ⟨player.halted.begun, clock + segment.duration⟩,
        farewell clock shown ++ greeting clock player segment ++ [⟨clock, .started light true⟩])
  | .stopLight _ => (none, farewell clock shown)
  | _ => (shown, [])

/-- What a timer makes of what its light shows, and what is heard of this. -/
def fire (clock : α) (shown : Shown α) : Shown α × List (Entry α) :=
  match shown.player.timeline[shown.player.nextIndex]? with
  | some segment =>
    (⟨shown.player.moved, clock + segment.duration⟩,
      [⟨clock, Stage.announcement shown.player shown.player.nextIndex segment⟩])
  | none => (shown, [])

/-- After an action a light shows what it showed before, or it starts at this time with the listener
that the action brings. -/
lemma eq_or_started {w : Wiring α} {clock : α} {before : Option (Shown α)} {action : Action}
    {shown : Shown α} (h : (act w clock before action).1 = some shown) :
    before = some shown ∨ ∃ light duration,
      action.Introduces light shown.player.tag ∧ shown.due = clock + duration := by
  cases action with
  | startLight light code tag hearsReset =>
    rw [act] at h
    cases hcode : w.timelineOf code with
    | error cause =>
      rw [hcode] at h
      exact .inl h
    | ok ts =>
      rw [hcode] at h
      cases ts with
      | nil => cases h
      | cons segment rest =>
        cases h
        exact .inr ⟨light, segment.duration, ⟨code, hearsReset, rfl⟩, rfl⟩
  | stopLight light => cases h
  | fail | start | stop | stopAll => exact .inl h

/-- A timer keeps the listener, and what is shown then moves on after some time. -/
lemma fire_fst (clock : α) (shown : Shown α) :
    (fire clock shown).1.player.tag = shown.player.tag ∧
      ((fire clock shown).1.due = shown.due ∨
        ∃ duration, (fire clock shown).1.due = clock + duration) := by
  rw [fire]
  split
  · exact ⟨rfl, .inr ⟨_, rfl⟩⟩
  · exact ⟨rfl, .inl rfl⟩

section

variable {w : Wiring α} {clock : α} {action : Action} {light : String}
  {given : String → Prop}

/-- What is heard of an action tells of its light. -/
lemma tellsOf_act {before : Option (Shown α)} (haction : action.light? = some light)
    (hgiven : ∀ tag, action.Introduces light tag → given tag)
    (hbefore : ∀ shown, before = some shown →
      shown.player.name = light ∧ given shown.player.tag) :
    ∀ entry ∈ (act w clock before action).2, entry.event.TellsOf light given := by
  have hfarewell : ∀ entry ∈ farewell clock before, entry.event.TellsOf light given := by
    cases before with
    | none => simp [farewell]
    | some shown =>
      obtain ⟨hname, htag⟩ := hbefore shown rfl
      cases hears : shown.player.hearsReset <;>
        simp [farewell, hears, Event.TellsOf, hname, htag]
  cases action with
  | stopLight _ => exact hfarewell
  | startLight _ code tag hearsReset =>
    cases haction
    have htag := hgiven tag ⟨code, hearsReset, rfl⟩
    rw [act]
    cases w.timelineOf code with
    | error cause => simp [Event.TellsOf]
    | ok ts =>
      -- what was shown before is taken off first
      cases ts with
      | nil =>
        refine List.forall_mem_append.mpr ⟨List.forall_mem_append.mpr ⟨hfarewell, ?_⟩, ?_⟩
        · cases hearsReset <;> simp [Event.TellsOf, htag]
        · simp [Event.TellsOf]
      | cons segment rest =>
        refine List.forall_mem_append.mpr ⟨List.forall_mem_append.mpr ⟨hfarewell, ?_⟩, ?_⟩
        · cases hearsReset <;>
            simp [greeting, Event.TellsOf, Manager.newPlayer, Stage.announcement, htag]
        · simp [Event.TellsOf]
  | fail | start | stop | stopAll => cases haction

/-- What is heard of a timer tells of its light. -/
lemma tellsOf_fire {shown : Shown α} (htag : given shown.player.tag) :
    ∀ entry ∈ (fire clock shown).2, entry.event.TellsOf light given := by
  rw [fire]
  split
  · simpa [Event.TellsOf, Stage.announcement] using htag
  · simp

end

end Shown

namespace Stage

/-- What a light shows, if anything. -/
def shown? (s : Stage α) (light : String) : Option (Shown α) := do
  let p ← s.lights.get? light
  let player ← s.players[p]?
  let timer ← s.timers[← player.timer]?
  return ⟨{ player with timer := none }, timer.due⟩

/-- No call is in progress. -/
structure Settled (s : Stage α) : Prop where
  /-- Every player has its timer. -/
  sound : Sound ⟨[], s⟩
  /-- Every running player is on show. -/
  listed : Listed s

/-- A player with its pending timer is on show for a light. -/
structure OnShow (s : Stage α) (light : String) (p : Nat) (player : Player α) (t : Nat)
    (timer : Timer α) : Prop where
  /-- The player is the one of the light. -/
  lights : s.lights.get? light = some p
  /-- This is the player. -/
  players : s.players[p]? = some player
  /-- It has the name of the light. -/
  name : player.name = light
  /-- It runs. -/
  running : player.running = true
  /-- It remembers the timer. -/
  remembered : player.timer = some t
  /-- This is the timer. -/
  timers : s.timers[t]? = some timer
  /-- It moves the player on. -/
  owner : timer.player = p
  /-- It was armed in the current generation. -/
  generation : timer.generation = player.generation

variable {s s' s'' : Stage α} {light other : String} {p q t : Nat} {player : Player α}
  {timer : Timer α}

lemma OnShow.shown?_eq (h : OnShow s light p player t timer) :
    s.shown? light = some ⟨{ player with timer := none }, timer.due⟩ := by
  simp [shown?, h.lights, h.players, h.remembered, h.timers]

lemma shown?_of_get?_eq_none (h : s.lights.get? light = none) : s.shown? light = none := by
  simp [shown?, h]

namespace Settled

/-- What is pending moves on the player that a light shows. -/
lemma onShow_of_pending (h : Settled s) (ht : s.timers[t]? = some timer)
    (hpending : timer.state = .pending) :
    ∃ player, OnShow s player.name timer.player player t timer := by
  have hp := List.getElem?_eq_getElem (h.sound.owner ht)
  have hdrives := ((h.sound.player hp).pending ht rfl hpending).1
  exact ⟨_, h.listed.current hp hdrives.running, hp, rfl, hdrives.running, hdrives.remembered, ht,
    rfl, hdrives.generation⟩

/-- A light that is on show has a player with a pending timer. -/
lemma onShow_of_get? (h : Settled s) (hp : s.lights.get? light = some p) :
    ∃ player t timer, OnShow s light p player t timer ∧ timer.state = .pending := by
  obtain ⟨player, hplayer, hname, hrun⟩ := h.listed.running hp
  obtain ⟨t, timer, ht, hown, hpending⟩ := (h.sound.player hplayer).armed hrun (not_isOpen_nil p _)
  have hdrives := ((h.sound.player hplayer).pending ht hown hpending).1
  exact ⟨player, t, timer, ⟨hp, hplayer, hname, hrun, hdrives.remembered, ht, hown,
    hdrives.generation⟩, hpending⟩

/-- What a light shows is the player on show for it. -/
lemma onShow_of_shown? (h : Settled s) {shown : Shown α} (hshown : s.shown? light = some shown) :
    ∃ p player t timer, OnShow s light p player t timer ∧ timer.state = .pending ∧
      shown = ⟨{ player with timer := none }, timer.due⟩ := by
  cases hp : s.lights.get? light with
  | none => rw [shown?_of_get?_eq_none hp] at hshown; cases hshown
  | some p =>
    obtain ⟨player, t, timer, honshow, hpending⟩ := h.onShow_of_get? hp
    exact ⟨p, player, t, timer, honshow, hpending,
      Option.some.inj (hshown.symm.trans honshow.shown?_eq)⟩

lemma name_of_shown? (h : Settled s) {shown : Shown α} (hshown : s.shown? light = some shown) :
    shown.player.name = light := by
  obtain ⟨p, player, t, timer, honshow, -, rfl⟩ := h.onShow_of_shown? hshown
  exact honshow.name

lemma congr (h : Settled s) (hplayers : s'.players = s.players) (htimers : s'.timers = s.timers)
    (hlights : s'.lights = s.lights) : Settled s' := by
  obtain ⟨clock, timers, players, lights, log⟩ := s
  obtain ⟨clock', timers', players', lights', log'⟩ := s'
  cases hplayers
  cases htimers
  cases hlights
  exact ⟨⟨h.sound.owner, h.sound.turnOwner, h.sound.distinct, h.sound.player⟩,
    ⟨h.listed.nodup, h.listed.current, h.listed.running⟩⟩

end Settled

/-- What a light is shown by stays when the clock moves. -/
lemma OnShow.at (h : OnShow s light p player t timer) (clock : α) :
    OnShow { s with clock := clock } light p player t timer :=
  ⟨h.lights, h.players, h.name, h.running, h.remembered, h.timers, h.owner, h.generation⟩

lemma Settled.at (h : Settled s) (clock : α) : Settled { s with clock := clock } :=
  h.congr rfl rfl rfl

/-! ### What other lights do -/

/-- A player and its timers are what they were. -/
structure Spares (p : Nat) (s s' : Stage α) : Prop where
  /-- The player. -/
  player : s'.players[p]? = s.players[p]?
  /-- Its timers. -/
  timers : SameTimers p s.timers s'.timers

namespace Spares

lemma trans (h : Spares p s s') (h' : Spares p s' s'') : Spares p s s'' :=
  ⟨h'.player.trans h.player,
    fun t timer hown => (h'.timers t timer hown).trans (h.timers t timer hown)⟩

lemma of_eq (hplayers : s'.players = s.players) (htimers : s'.timers = s.timers) :
    Spares p s s' :=
  ⟨by rw [hplayers], by rw [htimers]; exact .refl p s.timers⟩

lemma set_player (hpq : q ≠ p) (hplayers : s'.players = s.players.set q player)
    (htimers : s'.timers = s.timers) : Spares p s s' :=
  ⟨by rw [hplayers, List.getElem?_set_ne hpq], by rw [htimers]; exact .refl p s.timers⟩

/-- Another player is stopped. -/
lemma stopPlayer (hpq : q ≠ p) (hown : ∀ {player : Player α} {t : Nat},
    s.players[q]? = some player → player.timer = some t →
      ∃ timer : Timer α, s.timers[t]? = some timer ∧ timer.player = q) :
    Spares p s (s.stopPlayer q) := by
  refine ⟨Player.getElem?_stopPlayer_ne hpq s, ?_⟩
  cases hq : s.players[q]? with
  | none => simp only [Stage.stopPlayer, hq]; exact .refl p s.timers
  | some player =>
    simp only [Stage.stopPlayer, hq]
    intro t timer htimer
    rw [Player.getElem?_callOff]
    split
    · -- the timer that is called off is not one of the spared player
      rename_i ht
      obtain ⟨called, hcalled, hplayer⟩ := hown hq ht
      rw [hcalled, Option.map_some, Option.some.injEq, Option.some.injEq]
      constructor <;> rintro rfl
      · exact absurd (hplayer.symm.trans (called.calledOff_player.symm.trans htimer)) hpq
      · exact absurd (hplayer.symm.trans htimer) hpq
    · rfl

/-- Another player arms a timer. -/
lemma armedFor [Scalar α] {turn : Turn α} (hpq : turn.player ≠ p) :
    Spares p s (s.armedFor turn player) :=
  ⟨List.getElem?_set_ne hpq, SameTimers.append hpq⟩

end Spares

/-- What a light shows stays as it is if the light keeps its player, and the player its timer. -/
lemma Settled.shown?_of_spares (h : Settled s)
    (hlight : s'.lights.get? light = s.lights.get? light)
    (hspares : ∀ p, s.lights.get? light = some p → Spares p s s') :
    s'.shown? light = s.shown? light := by
  cases hp : s.lights.get? light with
  | none => rw [shown?_of_get?_eq_none hp, shown?_of_get?_eq_none (hlight.trans hp)]
  | some p =>
    obtain ⟨player, t, timer, honshow, -⟩ := h.onShow_of_get? hp
    have honshow' : OnShow s' light p player t timer := { honshow with
      lights := hlight.trans hp
      players := (hspares p hp).player.trans honshow.players
      timers := ((hspares p hp).timers t timer honshow.owner).mpr honshow.timers }
    rw [honshow.shown?_eq, honshow'.shown?_eq]

/-- The player of another light is another one. -/
lemma Settled.ne_of_get? (h : Settled s) (hp : s.lights.get? light = some p)
    (hq : s.lights.get? other = some q) (hlights : other ≠ light) : q ≠ p := by
  rintro rfl
  obtain ⟨player, hplayer, hname, -⟩ := h.listed.running hp
  obtain ⟨player', hplayer', hname', -⟩ := h.listed.running hq
  rw [hplayer, Option.some.injEq] at hplayer'
  exact hlights (hname'.symm.trans (hplayer' ▸ hname))

/-- The timer that a player remembers is its own. -/
lemma Settled.owner_of_remembered (h : Settled s) (hq : s.players[q]? = some player)
    (ht : player.timer = some t) :
    ∃ timer : Timer α, s.timers[t]? = some timer ∧ timer.player = q :=
  (h.sound.player hq).remembered ht

/-! ### Actions on lights -/

/-- The stage after a light was taken off show. -/
def withoutLight (s : Stage α) (light : String) : Stage α :=
  match s.lights.get? light with
  | none => s
  | some p => Stage.stopPlayer { s with lights := s.lights.erase light } p

variable [Scalar α] {w : Wiring α} {limits : Limits} {segment : Segment α} {action : Action}

/-- The stage after a new player was put on show whose listener only listens. -/
def withLight (s : Stage α) (light : String) (player : Player α) (segment : Segment α) : Stage α :=
  (((Manager.swapped s light player).stopPlayer s.players.length).beginTurn s.players.length
    player.halted segment).armedFor ⟨s.players.length, player.generation + 2, segment⟩
    player.halted.begun

/-- The stage after an action on a light. -/
def acted (w : Wiring α) (s : Stage α) : Action → Stage α
  | .startLight light code tag hearsReset =>
    match w.timelineOf code with
    | .error cause => s.noted (.raised (.compile cause))
    | .ok [] =>
      let s' := s.withoutLight light
      (if hearsReset then s'.noted (.reset tag) else s').noted (.started light false)
    | .ok (segment :: rest) =>
      (s.withLight light (Manager.newPlayer light (segment :: rest) tag hearsReset) segment).noted
        (.started light true)
  | .stopLight light => s.withoutLight light
  | _ => s

lemma stopLight_eq_withoutLight (hw : w.Listens) (depth : Nat) (light : String) (s : Stage α) :
    Manager.stopLight w (react w depth) light s = .ok ⟨⟩ (s.withoutLight light) := by
  rw [Manager.stopLight_eq hw.resets, withoutLight]
  cases s.lights.get? light <;> rfl

lemma showTimeline_eq_withLight (hw : w.Listens) (h : Listed s) (depth : Nat) (light : String)
    (segment : Segment α) (rest : Timeline α) (tag : String) (hearsReset : Bool) :
    Manager.showTimeline w (react w depth) light (segment :: rest) tag hearsReset s =
      .ok ⟨⟩ (s.withLight light (Manager.newPlayer light (segment :: rest) tag hearsReset)
        segment) := by
  have hseg : (Manager.newPlayer light (segment :: rest) tag hearsReset).timeline[0]? =
      some segment := rfl
  rw [Manager.showTimeline_eq hw.resets]
  generalize Manager.newPlayer light (segment :: rest) tag hearsReset = player at hseg ⊢
  have hp := Manager.getElem?_swapped_new h light player
  have hbegun := getElem?_set_player (Player.getElem?_stopPlayer hp) player.halted.begun
  -- the listener does nothing, so the turn that the start opens is closed at once
  rw [Player.start_eq hw.resets depth hp hseg, hw.replies_eq_nil, react_nil, endTurn,
    Player.closeTurn_of_current hbegun rfl rfl]
  refine if_pos ?_
  show ((Manager.swapped s light player).stopPlayer s.players.length).lights.get? light = _
  rw [Player.stopPlayer_lights, Manager.swapped_lights, Table.get?_set, if_pos rfl]

lemma perform_startLight (w : Wiring α) (depth : Nat) (caller : Option Nat) (light : String)
    (code : Option String) (tag : String) (hearsReset : Bool) :
    perform w (depth + 1) caller (.startLight light code tag hearsReset) = (do
      let shown ← Manager.startLight w (react w depth) light code tag hearsReset
      note (.started light shown)) := rfl

lemma perform_stopLight (w : Wiring α) (depth : Nat) (caller : Option Nat) (light : String) :
    perform w (depth + 1) caller (.stopLight light) =
      Manager.stopLight w (react w depth) light := rfl

/-- What an action on a light does to a stage. -/
lemma after_act (hw : w.Listens) (h : Listed s) (haction : action.light? = some light) :
    s.after w (.act action) limits = s.acted w action := by
  rw [after_eq_stageOf, operate, noting, Playback.tryCatch_apply]
  cases action with
  | stopLight light =>
    rw [perform_stopLight, stopLight_eq_withoutLight hw]
    rfl
  | startLight light code tag hearsReset =>
    rw [perform_startLight, Playback.bind_apply, Manager.startLight, acted]
    cases hcode : w.timelineOf code with
    | error cause => rfl
    | ok ts =>
      cases ts with
      | nil =>
        cases hearsReset <;>
          simp [stopLight_eq_withoutLight hw, Manager.announceBlank, note_apply, hw.resets _ _,
            react_nil]
      | cons segment rest =>
        simp [showTimeline_eq_withLight hw h, note_apply]
  | fail | start | stop | stopAll => cases haction

/-- The new player is on show. -/
lemma listed_withLight (h : Listed s) (hname : player.name = light) (segment : Segment α) :
    Listed (s.withLight light player segment) := by
  have hp := Manager.getElem?_swapped_new h light player
  have hbegun := getElem?_set_player (Player.getElem?_stopPlayer hp) player.halted.begun
  have hopened := Manager.listed_opened h hname segment
  exact Listed.of_players_set hopened hbegun rfl rfl rfl rfl

/-- After an action on a light no call is in progress. -/
lemma Settled.acted (hw : w.Listens) (h : Settled s) (haction : action.light? = some light) :
    Settled (s.acted w action) where
  sound := by
    have hpath : Path (fun _ => True) ⟨[], s⟩ ⟨[], s.after w (.act action) {}⟩ :=
      path_after hw.resets (asks_anything w) h.sound {} trivial
    rw [after_act hw h.listed haction] at hpath
    exact hpath.sound h.sound
  listed := by
    have hnoted : ∀ {s : Stage α}, Listed s → ∀ event, Listed (s.noted event) :=
      fun h _ => ⟨h.nodup, h.current, h.running⟩
    have hwithout : ∀ light, Listed (s.withoutLight light) := by
      intro light
      rw [withoutLight]
      split
      case h_1 => exact h.listed
      case h_2 p hp => exact h.listed.erase hp
    cases action with
    | stopLight light => exact hwithout light
    | startLight light code tag hearsReset =>
      rw [Stage.acted]
      cases hcode : w.timelineOf code with
      | error cause => exact hnoted h.listed _
      | ok ts =>
        cases ts with
        | nil =>
          dsimp only
          split
          · exact hnoted (hnoted (hwithout light) _) _
          · exact hnoted (hwithout light) _
        | cons segment rest =>
          have hname : (Manager.newPlayer light (segment :: rest) tag hearsReset).name = light :=
            rfl
          exact hnoted (listed_withLight h.listed hname segment) _
    | fail | start | stop | stopAll => cases haction

/-! ### Other lights -/

omit [Scalar α] in
lemma Spares.withoutLight (h : Settled s) (hp : s.lights.get? light = some p)
    (hother : other ≠ light) : Spares p s (s.withoutLight other) := by
  rw [Stage.withoutLight]
  cases hq : s.lights.get? other with
  | none => exact .of_eq rfl rfl
  | some q =>
    have hstopped : Spares p { s with lights := s.lights.erase other }
        (Stage.stopPlayer { s with lights := s.lights.erase other } q) :=
      .stopPlayer (h.ne_of_get? hp hq hother) fun hq ht => h.owner_of_remembered hq ht
    exact ⟨hstopped.player, hstopped.timers⟩

omit [Scalar α] in
lemma lights_withoutLight (s : Stage α) (light other : String) :
    (s.withoutLight light).lights.get? other =
      if other = light then none else s.lights.get? other := by
  rw [Stage.withoutLight]
  split
  case h_1 hnone =>
    split
    case isTrue hlight => rw [hlight, hnone]
    case isFalse => rfl
  case h_2 p hp => rw [Player.stopPlayer_lights, Table.get?_erase]

omit [Scalar α] in
lemma Spares.swapped (h : Settled s) (hp : s.lights.get? light = some p)
    (hother : other ≠ light) (player : Player α) :
    Spares p s (Manager.swapped s other player) := by
  obtain ⟨shown, hshown, -⟩ := h.listed.running hp
  obtain ⟨hlen, -⟩ := List.getElem?_eq_some_iff.mp hshown
  have hadded : Spares p s { s with
      players := s.players ++ [player]
      lights := s.lights.set other s.players.length } :=
    ⟨List.getElem?_append_left hlen, .refl p s.timers⟩
  rw [Manager.swapped]
  cases hq : s.lights.get? other with
  | none => exact hadded
  | some q =>
    obtain ⟨stopped, hstopped, -⟩ := h.listed.running hq
    refine hadded.trans (.stopPlayer (h.ne_of_get? hp hq hother) fun {player t} hq ht => ?_)
    rw [List.getElem?_append_left (List.getElem?_eq_some_iff.mp hstopped).1] at hq
    exact h.owner_of_remembered hq ht

lemma Spares.withLight (h : Settled s) (hp : s.lights.get? light = some p)
    (hother : other ≠ light) {player : Player α} (hfresh : player.timer = none) :
    Spares p s (s.withLight other player segment) := by
  have hnew : s.players.length ≠ p := by
    rintro rfl
    exact Manager.get?_ne_new h.listed light hp
  have hstopped : Spares p (Manager.swapped s other player)
      ((Manager.swapped s other player).stopPlayer s.players.length) := by
    refine .stopPlayer hnew fun hq ht => ?_
    -- the new player has no timer yet
    rw [Manager.getElem?_swapped_new h.listed, Option.some.injEq] at hq
    rw [← hq, hfresh] at ht
    cases ht
  have hbegun : Spares p ((Manager.swapped s other player).stopPlayer s.players.length)
      (((Manager.swapped s other player).stopPlayer s.players.length).beginTurn s.players.length
        player.halted segment) := .set_player hnew rfl rfl
  exact ((Spares.swapped h hp hother player).trans hstopped).trans
    (hbegun.trans (.armedFor hnew))

lemma lights_withLight (s : Stage α) (light : String) (player : Player α) (segment : Segment α) :
    (s.withLight light player segment).lights = s.lights.set light s.players.length :=
  (Player.stopPlayer_lights _ _).trans (Manager.swapped_lights s light player)

/-- An action on a light leaves what other lights show as it is. -/
lemma shown?_acted_of_ne (h : Settled s) (haction : action.light? = some other)
    (hother : other ≠ light) : (s.acted w action).shown? light = s.shown? light := by
  have hne : light ≠ other := Ne.symm hother
  have hwithout : (s.withoutLight other).lights.get? light = s.lights.get? light := by
    rw [lights_withoutLight, if_neg hne]
  cases action with
  | stopLight _ =>
    cases haction
    exact h.shown?_of_spares hwithout fun p hp => .withoutLight h hp hother
  | startLight _ code tag hearsReset =>
    cases haction
    rw [acted]
    cases hcode : w.timelineOf code with
    | error cause => exact h.shown?_of_spares rfl fun p hp => .of_eq rfl rfl
    | ok ts =>
      cases ts with
      | nil =>
        refine h.shown?_of_spares ?_ fun p hp => (Spares.withoutLight h hp hother).trans ?_ <;>
          dsimp only <;> split
        · exact hwithout
        · exact hwithout
        · exact .of_eq rfl rfl
        · exact .of_eq rfl rfl
      | cons segment rest =>
        refine h.shown?_of_spares ?_ fun p hp => (Spares.withLight h hp hother rfl).trans
          (.of_eq rfl rfl)
        show (s.withLight other _ segment).lights.get? light = _
        rw [lights_withLight, Table.get?_set, if_neg hne]
  | fail | start | stop | stopAll => cases haction

/-! ### The light of an action -/

section

omit [Scalar α]

@[simp] lemma stopPlayer_clock (s : Stage α) (p : Nat) : (s.stopPlayer p).clock = s.clock := by
  unfold stopPlayer
  split <;> rfl

lemma heard_stopPlayer (hp : s.players[p]? = some player) :
    heard (s.stopPlayer p).log = heard s.log ++
      ((if player.hearsReset then [⟨s.clock, .reset player.tag⟩] else [])
        ++ if player.running then [⟨s.clock, .stopped player.name⟩] else []) := by
  simp only [stopPlayer, hp, heard_append, partings, List.map_append]
  congr 1
  -- calling a timer off cannot be heard
  cases player.timer with
  | none => cases player.hearsReset <;> cases player.running <;> rfl
  | some t =>
    dsimp only
    split <;> cases player.hearsReset <;> cases player.running <;> rfl

lemma heard_noted {event : Event α} (hheard : event.isHeard = true) (s : Stage α) :
    heard (s.noted event).log = heard s.log ++ [⟨s.clock, event⟩] := by
  rw [noted, heard_append]
  congr 1
  exact List.filter_cons_of_pos hheard

/-- Stopping the player that is on show says farewell to it. -/
lemma OnShow.heard_stopPlayer (h : OnShow s light p player t timer) :
    heard (s.stopPlayer p).log = heard s.log ++ Shown.farewell s.clock (s.shown? light) := by
  rw [Stage.heard_stopPlayer h.players, h.shown?_eq, h.running]
  rfl

lemma heard_withoutLight (h : Settled s) (light : String) :
    heard (s.withoutLight light).log = heard s.log ++ Shown.farewell s.clock (s.shown? light) := by
  rw [withoutLight]
  cases hp : s.lights.get? light with
  | none => rw [shown?_of_get?_eq_none hp, Shown.farewell, List.append_nil]
  | some p =>
    obtain ⟨player, t, timer, honshow, -⟩ := h.onShow_of_get? hp
    rw [← honshow.heard_stopPlayer, Stage.heard_stopPlayer honshow.players]
    exact Stage.heard_stopPlayer (s := { s with lights := s.lights.erase light }) honshow.players

lemma clock_withoutLight (s : Stage α) (light : String) :
    (s.withoutLight light).clock = s.clock := by
  rw [withoutLight]
  split
  · rfl
  · exact stopPlayer_clock _ _

lemma clock_swapped (s : Stage α) (light : String) (player : Player α) :
    (Manager.swapped s light player).clock = s.clock := by
  rw [Manager.swapped]
  cases s.lights.get? light with
  | none => rfl
  | some q => exact stopPlayer_clock _ q

lemma heard_swapped (h : Settled s) (light : String) (player : Player α) :
    heard (Manager.swapped s light player).log =
      heard s.log ++ Shown.farewell s.clock (s.shown? light) := by
  rw [Manager.swapped]
  cases hp : s.lights.get? light with
  | none => rw [shown?_of_get?_eq_none hp, Shown.farewell, List.append_nil]
  | some p =>
    obtain ⟨old, t, timer, honshow, -⟩ := h.onShow_of_get? hp
    obtain ⟨hlen, -⟩ := List.getElem?_eq_some_iff.mp honshow.players
    rw [← honshow.heard_stopPlayer, Stage.heard_stopPlayer honshow.players]
    exact Stage.heard_stopPlayer (s := { s with
      players := s.players ++ [player]
      lights := s.lights.set light s.players.length })
      ((List.getElem?_append_left hlen).trans honshow.players)

end

lemma clock_withLight (s : Stage α) (light : String) (player : Player α) (segment : Segment α) :
    (s.withLight light player segment).clock = s.clock :=
  (stopPlayer_clock _ _).trans (clock_swapped s light player)

lemma heard_withLight (h : Settled s) (light : String) {player : Player α}
    (hfresh : player.running = false) (segment : Segment α) :
    heard (s.withLight light player segment).log = heard s.log ++
      (Shown.farewell s.clock (s.shown? light) ++ Shown.greeting s.clock player segment) := by
  have hp := Manager.getElem?_swapped_new h.listed light player
  have hstopped := heard_stopPlayer hp
  rw [heard_swapped h, clock_swapped, hfresh] at hstopped
  show heard ((((Manager.swapped s light player).stopPlayer s.players.length).log ++ _) ++ _) = _
  rw [heard_append, heard_append, hstopped, stopPlayer_clock, clock_swapped, Shown.greeting]
  simp [heard, Event.isHeard, Player.halted, announcement]

/-- What is shown after a new player was put on show. -/
lemma shown?_withLight (h : Settled s) (hname : player.name = light) (segment : Segment α) :
    (s.withLight light player segment).shown? light =
      some ⟨player.halted.begun, s.clock + segment.duration⟩ := by
  have hp := Manager.getElem?_swapped_new h.listed light player
  have hbegun := getElem?_set_player (Player.getElem?_stopPlayer hp) player.halted.begun
  let begun : Stage α := ((Manager.swapped s light player).stopPlayer s.players.length).beginTurn
    s.players.length player.halted segment
  have honshow : OnShow (s.withLight light player segment) light s.players.length
      { player.halted.begun with timer := some begun.timers.length } begun.timers.length
      { due := begun.clock + segment.duration, interval := segment.duration,
        player := s.players.length, generation := player.generation + 2 } :=
    { lights := by rw [lights_withLight, Table.get?_set, if_pos rfl]
      players := getElem?_set_player (s := begun) hbegun _
      name := hname
      running := rfl
      remembered := rfl
      timers := List.getElem?_concat_length
      owner := rfl
      generation := rfl }
  have hclock : begun.clock = s.clock := clock_withLight s light player segment
  rw [honshow.shown?_eq, hclock]
  rfl

/-- What an action makes of what its light shows, and what is heard of it. -/
lemma shown?_acted (h : Settled s) (haction : action.light? = some light) :
    ((s.acted w action).shown? light, heard (s.acted w action).log) =
      ((Shown.act w s.clock (s.shown? light) action).1,
        heard s.log ++ (Shown.act w s.clock (s.shown? light) action).2) := by
  have hwithout : (s.withoutLight light).shown? light = none :=
    shown?_of_get?_eq_none (by rw [lights_withoutLight, if_pos rfl])
  cases action with
  | stopLight _ =>
    cases haction
    rw [acted, hwithout, heard_withoutLight h, Shown.act]
  | startLight _ code tag hearsReset =>
    cases haction
    rw [acted, Shown.act]
    cases hcode : w.timelineOf code with
    | error cause => exact Prod.ext rfl (heard_noted rfl s)
    | ok ts =>
      cases ts with
      | nil =>
        cases hearsReset
        · refine Prod.ext hwithout ((heard_noted rfl _).trans ?_)
          rw [if_neg (by simp), heard_withoutLight h, clock_withoutLight]
          simp
        · refine Prod.ext hwithout ((heard_noted rfl _).trans ?_)
          rw [if_pos rfl, heard_noted rfl, heard_withoutLight h]
          show _ ++ [(⟨(s.withoutLight light).clock, .started light false⟩ : Entry α)] = _
          rw [clock_withoutLight]
          simp
      | cons segment rest =>
        have hname : (Manager.newPlayer light (segment :: rest) tag hearsReset).name = light := rfl
        refine Prod.ext (shown?_withLight h hname segment) ((heard_noted rfl _).trans ?_)
        rw [heard_withLight h light rfl, clock_withLight]
        simp
  | fail | start | stop | stopAll => cases haction

lemma clock_acted (w : Wiring α) (s : Stage α) (action : Action) :
    (s.acted w action).clock = s.clock := by
  cases action with
  | stopLight light => exact clock_withoutLight s light
  | startLight light code tag hearsReset =>
    rw [acted]
    cases w.timelineOf code with
    | error cause => rfl
    | ok ts =>
      cases ts with
      | nil => cases hearsReset <;> exact clock_withoutLight s light
      | cons segment rest => exact clock_withLight s light _ segment
  | fail | start | stop | stopAll => rfl

/-! ### Timers -/

/-- A timer that runs opens and closes a turn of the player that is on show. -/
lemma OnShow.firedOne_eq (h : OnShow s light p player t timer) (hw : w.Listens) (hs : Settled s)
    (depth : Nat) : ∃ segment, player.timeline[player.nextIndex]? = some segment ∧
      s.firedOne w depth t timer = ((s.withFired t timer).nextTurn p player segment).armedFor
        ⟨p, timer.generation, segment⟩ player.moved := by
  have hpos := (hs.sound.player h.players).inRange h.running
  have hnext : player.nextIndex < player.timeline.length := Nat.mod_lt _ (by omega)
  have hseg := List.getElem?_eq_getElem hnext
  refine ⟨_, hseg, ?_⟩
  have hp : s.players[timer.player]? = some player := h.owner ▸ h.players
  rw [firedOne_of_silent timer hp h.running h.generation.symm hseg (hw.replies_eq_nil _ _ _),
    h.owner]

lemma OnShow.settled_firedOne (h : OnShow s light p player t timer) (hw : w.Listens)
    (hs : Settled s) (hpending : timer.state = .pending) (depth : Nat) :
    Settled (s.firedOne w depth t timer) where
  sound := Path.sound (path_firedOne hw.resets (asks_anything w) hs.sound depth h.timers
    (by simp [hpending])) hs.sound
  listed := by
    obtain ⟨segment, -, heq⟩ := h.firedOne_eq hw hs depth
    have hmoved : ((s.withFired t timer).nextTurn p player segment).players[p]? =
        some player.moved := getElem?_set_player (s := s.withFired t timer) h.players player.moved
    have hturn : Listed ((s.withFired t timer).nextTurn p player segment) :=
      hs.listed.of_players_set h.players rfl rfl rfl rfl
    rw [heq]
    exact hturn.of_players_set hmoved rfl rfl rfl rfl

/-- A timer that runs leaves what other lights show as it is. -/
lemma OnShow.shown?_firedOne_of_ne (h : OnShow s other p player t timer) (hw : w.Listens)
    (hs : Settled s) (hother : other ≠ light) (depth : Nat) :
    (s.firedOne w depth t timer).shown? light = s.shown? light := by
  obtain ⟨segment, -, heq⟩ := h.firedOne_eq hw hs depth
  rw [heq]
  refine hs.shown?_of_spares rfl fun q hq => ?_
  have hpq : p ≠ q := hs.ne_of_get? hq h.lights hother
  have howner : timer.player ≠ q := h.owner ▸ hpq
  have hfired : Spares q s (s.withFired t timer) :=
    ⟨rfl, .set h.timers howner howner⟩
  have hturn : Spares q (s.withFired t timer) ((s.withFired t timer).nextTurn p player segment) :=
    .set_player hpq rfl rfl
  exact hfired.trans (hturn.trans (.armedFor hpq))

/-- What a timer makes of what its light shows, and what is heard of it. -/
lemma OnShow.shown?_firedOne (h : OnShow s light p player t timer) (hw : w.Listens)
    (hs : Settled s) (depth : Nat) :
    ((s.firedOne w depth t timer).shown? light, heard (s.firedOne w depth t timer).log) =
      (some (Shown.fire s.clock ⟨{ player with timer := none }, timer.due⟩).1,
        heard s.log ++ (Shown.fire s.clock ⟨{ player with timer := none }, timer.due⟩).2) := by
  obtain ⟨segment, hseg, heq⟩ := h.firedOne_eq hw hs depth
  have hfire : Shown.fire s.clock ⟨{ player with timer := none }, timer.due⟩ =
      (⟨{ player.moved with timer := none }, s.clock + segment.duration⟩,
        [⟨s.clock, announcement player player.nextIndex segment⟩]) := by
    have hseg' : ({ player with timer := none } : Player α).timeline[
        ({ player with timer := none } : Player α).nextIndex]? = some segment := hseg
    simp only [Shown.fire, hseg']
    rfl
  have hmoved : ((s.withFired t timer).nextTurn p player segment).players[p]? =
      some player.moved := getElem?_set_player (s := s.withFired t timer) h.players player.moved
  have hlen : (s.withFired t timer).timers.length = s.timers.length := List.length_set
  have honshow : OnShow (s.firedOne w depth t timer) light p
      { player.moved with timer := some s.timers.length } s.timers.length
      { due := s.clock + segment.duration, interval := segment.duration, player := p,
        generation := timer.generation } := by
    rw [heq]
    exact
      { lights := h.lights
        players := by
          rw [← hlen]
          exact getElem?_set_player (s := (s.withFired t timer).nextTurn p player segment) hmoved _
        name := h.name
        running := h.running
        remembered := rfl
        timers := by
          rw [← hlen]
          exact List.getElem?_concat_length
        owner := rfl
        generation := h.generation }
  rw [honshow.shown?_eq, hfire, heq]
  refine Prod.ext rfl ?_
  show heard ((s.log ++ _) ++ _) = _
  rw [heard_append, heard_append]
  exact List.append_nil _

lemma OnShow.clock_firedOne (h : OnShow s light p player t timer) (hw : w.Listens)
    (hs : Settled s) (depth : Nat) : (s.firedOne w depth t timer).clock = s.clock := by
  obtain ⟨segment, -, heq⟩ := h.firedOne_eq hw hs depth
  rw [heq]
  rfl

end Stage

end Seamark
