import Seamark.Proofs.Playback.Runs

/-!
# A player on its own

One player, which is started, stopped, moved on by time and disturbed by timers that were called
off, while its listener may fail, start it and stop it. Between operations it has exactly one
pending timer if it runs and none if it does not; its listener hears of a segment only between a
start and the next stop; and a timer from before a start or a stop changes nothing any more.
-/

namespace Seamark

variable {α : Type}

/-- What can be asked of a player on its own. -/
def Action.IsSolo : Action → Prop
  | .start | .stop | .fail _ => True
  | _ => False

/-- A segment was announced. -/
def Event.isStep : Event α → Bool
  | .stepped .. => true
  | _ => false

/-- Whether a player plays after an event. -/
def Event.playsAfter (plays : Bool) : Event α → Bool
  | .playing .. => true
  | .stopped _ => false
  | _ => plays

/-- Whether a player plays after the events of a log. -/
def playsAfter (plays : Bool) (log : List (Entry α)) : Bool :=
  log.foldl (fun plays entry => entry.event.playsAfter plays) plays

/-- Segments were announced only while the player was playing. -/
def StepsWhilePlaying : Bool → List (Entry α) → Prop
  | _, [] => True
  | plays, entry :: log =>
    (entry.event.isStep = true → plays = true) ∧
      StepsWhilePlaying (entry.event.playsAfter plays) log

/-- No segment was announced. -/
def Silent (log : List (Entry α)) : Prop :=
  ∀ entry ∈ log, entry.event.isStep = false

/-! ### Logs -/

section

variable {plays : Bool} {log log' : List (Entry α)}

@[simp] lemma playsAfter_nil (plays : Bool) : playsAfter plays ([] : List (Entry α)) = plays := rfl

@[simp] lemma playsAfter_cons (plays : Bool) (entry : Entry α) (log : List (Entry α)) :
    playsAfter plays (entry :: log) = playsAfter (entry.event.playsAfter plays) log := rfl

@[simp] lemma playsAfter_append (plays : Bool) (log log' : List (Entry α)) :
    playsAfter plays (log ++ log') = playsAfter (playsAfter plays log) log' :=
  List.foldl_append

lemma stepsWhilePlaying_append :
    StepsWhilePlaying plays (log ++ log') ↔
      StepsWhilePlaying plays log ∧ StepsWhilePlaying (playsAfter plays log) log' := by
  induction log generalizing plays with
  | nil => simp [StepsWhilePlaying]
  | cons entry log ih => simp [StepsWhilePlaying, ih, and_assoc]

lemma Silent.stepsWhilePlaying (h : Silent log) (plays : Bool) : StepsWhilePlaying plays log := by
  induction log generalizing plays with
  | nil => trivial
  | cons entry log ih =>
    have hentry := h entry (by simp)
    exact ⟨fun hstep => by simp [hentry] at hstep, ih (fun e he => h e (by simp [he])) _⟩

lemma Event.IsAside.not_isStep {event : Event α} (h : event.IsAside) : event.isStep = false := by
  cases event <;> simp_all [Event.IsAside, Event.isStep]

lemma Event.IsAside.playsAfter_eq {event : Event α} (h : event.IsAside) (plays : Bool) :
    event.playsAfter plays = plays := by
  cases event <;> simp_all [Event.IsAside, Event.playsAfter]

/-- The last event of stopping a player tells whether it ran; the others tell nothing of it. -/
lemma exists_partings (s : Stage α) (player : Player α) : ∃ asides : List (Event α),
    s.partings player = asides ++ (if player.running then [.stopped player.name] else []) ∧
      ∀ event ∈ asides, event.IsAside := by
  refine ⟨_, rfl, fun event hevent => ?_⟩
  rw [List.mem_append] at hevent
  rcases hevent with hevent | hevent
  · split at hevent
    · split at hevent
      · rw [List.mem_singleton.mp hevent]
        trivial
      · simp at hevent
    · simp at hevent
  · split at hevent
    · rw [List.mem_singleton.mp hevent]
      trivial
    · simp at hevent

lemma playsAfter_of_asides {events : List (Event α)} (h : ∀ event ∈ events, event.IsAside)
    (plays : Bool) (time : α) : playsAfter plays (events.map (⟨time, ·⟩)) = plays := by
  induction events with
  | nil => rfl
  | cons event events ih =>
    rw [List.map_cons, playsAfter_cons, (h event (by simp)).playsAfter_eq]
    exact ih fun e he => h e (by simp [he])

/-- A player plays after it was stopped only if it did not run and played before. -/
lemma playsAfter_partings (s : Stage α) (player : Player α) (plays : Bool) (time : α) :
    playsAfter plays ((s.partings player).map (⟨time, ·⟩)) = (plays && !player.running) := by
  obtain ⟨asides, hpartings, hasides⟩ := exists_partings s player
  rw [hpartings, List.map_append, playsAfter_append, playsAfter_of_asides hasides]
  cases player.running <;> simp [Event.playsAfter]

lemma silent_partings (s : Stage α) (player : Player α) (time : α) :
    Silent ((s.partings player).map (⟨time, ·⟩)) := by
  obtain ⟨asides, hpartings, hasides⟩ := exists_partings s player
  intro entry hentry
  rw [hpartings, List.mem_map] at hentry
  obtain ⟨event, hevent, rfl⟩ := hentry
  rcases List.mem_append.mp hevent with haside | hstopped
  · exact (hasides event haside).not_isStep
  · split at hstopped
    · rw [List.mem_singleton.mp hstopped]
      rfl
    · simp at hstopped

end

/-! ### The log of a player on its own -/

/-- There is one player, the log tells whether it runs, and segments were announced only while it
was playing. -/
def Lone (s : Stage α) (player : Player α) : Prop :=
  s.players = [player] ∧ playsAfter false s.log = player.running ∧ StepsWhilePlaying false s.log

namespace Lone

variable {s : Stage α} {player other : Player α} {p : Nat}

lemma eq_of_getElem? (h : Lone s player) (hp : s.players[p]? = some other) :
    p = 0 ∧ player = other := by
  rw [h.1] at hp
  cases p with
  | zero => simpa using hp
  | succ p => simp at hp

/-- Stopping the player. -/
lemma stopPlayer (h : Lone s player) (p : Nat) : ∃ player', Lone (s.stopPlayer p) player' := by
  cases hp : s.players[p]? with
  | none => exact ⟨player, by rwa [Stage.stopPlayer, hp]⟩
  | some other =>
    obtain ⟨rfl, rfl⟩ := h.eq_of_getElem? hp
    obtain ⟨hone, hplays, hsteps⟩ := h
    refine ⟨player.halted, ?_, ?_, ?_⟩
    · simp [Stage.stopPlayer, hone]
    · simp [Stage.stopPlayer, hone, playsAfter_partings, hplays, Player.halted]
    · rw [Stage.stopPlayer, hp]
      exact stepsWhilePlaying_append.mpr ⟨hsteps, (silent_partings s player _).stepsWhilePlaying _⟩

/-- An event that tells nothing of the player. -/
lemma noted (h : Lone s player) {event : Event α} (haside : event.IsAside) :
    Lone (s.noted event) player := by
  obtain ⟨hone, hplays, hsteps⟩ := h
  refine ⟨hone, ?_, ?_⟩
  · simp [Stage.noted, hplays, haside.playsAfter_eq]
  · exact stepsWhilePlaying_append.mpr
      ⟨hsteps, fun hstep => by simp [haside.not_isStep] at hstep, trivial⟩

end Lone

variable [Scalar α]

/-- Whatever is asked of a player on its own, the log tells whether it runs. -/
lemma Move.lone {m m' : Scene α} (hmove : Move Action.IsSolo m m') {player : Player α}
    (h : Lone m.stage player) : ∃ player', Lone m'.stage player' := by
  cases hmove with
  | stopped turns s p => exact h.stopPlayer p
  | @begun turns s p other segment hp hrun hseg =>
    obtain ⟨rfl, rfl⟩ := h.eq_of_getElem? hp
    obtain ⟨hone, hplays, hsteps⟩ := h
    refine ⟨player.begun, by simp [Stage.beginTurn, show s.players = [player] from hone], ?_, ?_⟩
    · simp [Stage.beginTurn, Event.playsAfter, Stage.announcement, Player.begun]
    · exact stepsWhilePlaying_append.mpr
        ⟨hsteps, by simp [StepsWhilePlaying, Event.isStep, Event.playsAfter]⟩
  | @moved s t timer other segment ht hstate hp hrun hgen hseg =>
    obtain ⟨hzero, rfl⟩ := h.eq_of_getElem? hp
    obtain ⟨hone, hplays, hsteps⟩ := h
    have hplaying : playsAfter false s.log = true := hplays.trans hrun
    refine ⟨player.moved, ?_, ?_, ?_⟩
    · simp [Stage.nextTurn, Stage.withFired, show s.players = [player] from hone, hzero]
    · simp [Stage.nextTurn, Stage.withFired, hplaying, Event.playsAfter, Stage.announcement,
        Player.moved, hrun]
    · exact stepsWhilePlaying_append.mpr ⟨hsteps, fun _ => hplaying, trivial⟩
  | @late turns s t timer ht hcurrent => exact ⟨player, h⟩
  | @armed turns s turn other hp hrun hgen =>
    obtain ⟨hzero, rfl⟩ := h.eq_of_getElem? hp
    obtain ⟨hone, hplays, hsteps⟩ := h
    refine ⟨{ player with timer := some s.timers.length }, ?_, ?_, ?_⟩
    · simp [Stage.armedFor, show s.players = [player] from hone, hzero]
    · simp only [Stage.armedFor, playsAfter_append]
      exact hplays
    · exact stepsWhilePlaying_append.mpr
        ⟨hsteps, fun hstep => absurd hstep (by simp [Event.isStep]), trivial⟩
  | left turns _ => exact ⟨player, h⟩
  | noted turns s _ haside => exact ⟨player, h.noted haside⟩
  | ticked turns s clock => exact ⟨player, h⟩
  | @added turns s other hfresh hasked =>
    -- a player on its own never asks for a light
    obtain ⟨light, code, tag, hearsReset, hsolo⟩ := hasked
    exact absurd hsolo (by simp [Action.IsSolo])
  | relit turns s lights => exact ⟨player, h⟩

lemma Path.lone {m m' : Scene α} (hpath : Path Action.IsSolo m m') {player : Player α}
    (h : Lone m.stage player) : ∃ player', Lone m'.stage player' := by
  induction hpath with
  | refl => exact ⟨player, h⟩
  | tail _ hmove ih =>
    obtain ⟨player', h'⟩ := ih
    exact hmove.lone h'

/-! ### Pending timers -/

namespace Stage

omit [Scalar α]

variable {s : Stage α} {t : Nat} {player : Player α}

lemma mem_pendingTimers_iff :
    t ∈ s.pendingTimers ↔ ∃ timer, s.timers[t]? = some timer ∧ timer.state = .pending := by
  simp only [pendingTimers, List.mem_map, List.mem_filter, decide_eq_true_eq, Prod.exists,
    List.mem_zipIdx_iff_getElem?]
  constructor
  · rintro ⟨timer, t', ⟨ht, hpending⟩, rfl⟩
    exact ⟨timer, ht, hpending⟩
  · rintro ⟨timer, ht, hpending⟩
    exact ⟨timer, t, ⟨ht, hpending⟩, rfl⟩

lemma nodup_pendingTimers (s : Stage α) : s.pendingTimers.Nodup := by
  have hnumbers : (s.timers.zipIdx.map (·.2)).Nodup := by
    rw [List.zipIdx_map_snd]
    exact List.nodup_range'
  exact hnumbers.sublist (List.filter_sublist.map _)

/-- If a number is the only one of a pending timer, it is the list of them. -/
lemma pendingTimers_eq_singleton (ht : t ∈ s.pendingTimers)
    (honly : ∀ t' ∈ s.pendingTimers, t' = t) : s.pendingTimers = [t] := by
  have hnodup := s.nodup_pendingTimers
  cases hlist : s.pendingTimers with
  | nil => simp [hlist] at ht
  | cons a rest =>
    rw [hlist] at honly hnodup
    obtain rfl := honly a (by simp)
    cases rest with
    | nil => rfl
    | cons b rest =>
      obtain rfl := honly b (by simp)
      simp at hnodup

/-- Without a pending timer nothing is due. -/
lemma nextDue?_of_pendingTimers_eq_nil [Scalar α] (h : s.pendingTimers = []) (target : α) :
    nextDue? target s.timers = none := by
  cases hnext : nextDue? target s.timers with
  | none => rfl
  | some entry =>
    obtain ⟨ht, hpending, -⟩ := nextDue?_eq_some hnext
    have hmem := mem_pendingTimers_iff.mpr ⟨_, ht, hpending⟩
    simp [h] at hmem

/-- A player on its own has exactly one pending timer if it runs: the one that it remembers, armed
in its generation for the length of the segment that it shows. If it does not run, it has none. -/
structure OneChain (s : Stage α) (player : Player α) : Prop where
  /-- A running player has one pending timer. -/
  running : player.running = true → ∃ (t : Nat) (timer : Timer α) (segment : Segment α),
    s.pendingTimers = [t] ∧ player.timer = some t ∧ s.timers[t]? = some timer ∧
      timer.generation = player.generation ∧ player.timeline[player.index]? = some segment ∧
      timer.interval = segment.duration
  /-- A player that does not run has no pending timer. -/
  stopped : player.running = false → s.pendingTimers = []

/-- The timers of a stage with one player are its own. -/
lemma player_eq_zero (hsound : Sound ⟨[], s⟩) (hone : s.players = [player]) {timer : Timer α}
    (ht : s.timers[t]? = some timer) : timer.player = 0 := by
  have hlt := hsound.owner ht
  simp only [hone, List.length_singleton] at hlt
  omega

/-- The pending timers of a stage with one player are those of the player. -/
lemma mem_pendingTimers_iff_isPendingOf (hsound : Sound ⟨[], s⟩) (hone : s.players = [player]) :
    t ∈ s.pendingTimers ↔ s.IsPendingOf 0 t := by
  rw [mem_pendingTimers_iff]
  constructor
  · rintro ⟨timer, ht, hpending⟩
    exact ⟨timer, ht, player_eq_zero hsound hone ht, hpending⟩
  · rintro ⟨timer, ht, -, hpending⟩
    exact ⟨timer, ht, hpending⟩

/-- A sound stage with one player has one chain of timers. -/
lemma oneChain_of_sound (hsound : Sound ⟨[], s⟩) (hone : s.players = [player]) :
    s.OneChain player := by
  have hp : s.players[0]? = some player := by simp [hone]
  have hmem : ∀ t, t ∈ s.pendingTimers ↔ s.IsPendingOf 0 t :=
    fun t => mem_pendingTimers_iff_isPendingOf hsound hone
  constructor
  · intro hrun
    obtain ⟨t, hpendingOf, honly⟩ := hsound.existsUnique_pending hp hrun
    have hsingle : s.pendingTimers = [t] :=
      pendingTimers_eq_singleton ((hmem t).mpr hpendingOf)
        fun t' ht' => honly t' ((hmem t').mp ht')
    obtain ⟨timer, ht, hown, hpending⟩ := hpendingOf
    have hdrives := ((hsound.player hp).pending ht hown hpending).1
    obtain ⟨segment, hsegment, hinterval⟩ := hdrives.interval
    exact ⟨t, timer, segment, hsingle, hdrives.remembered, ht, hdrives.generation, hsegment,
      hinterval⟩
  · intro hstopped
    rw [List.eq_nil_iff_forall_not_mem]
    intro t ht
    exact hsound.not_pending hp hstopped t ((hmem t).mp ht)

/-! ### Timers that come too late -/

/-- A timer from before the last start or stop of its player. -/
def Superseded (s : Stage α) (timer : Timer α) : Prop :=
  ∀ player, s.players[timer.player]? = some player → timer.generation < player.generation

lemma Superseded.not_isCurrent {timer : Timer α} (h : s.Superseded timer) :
    ¬ s.IsCurrent timer.player timer.generation := by
  rintro ⟨player, hp, -, hgen⟩
  exact absurd (h player hp) (by omega)

lemma superseded_of_cancelled (hsound : Sound ⟨[], s⟩) {timer : Timer α}
    (ht : s.timers[t]? = some timer) (hcancelled : timer.state = .cancelled) :
    s.Superseded timer :=
  fun _ hp => (hsound.player hp).cancelled ht rfl hcancelled

end Stage

namespace Stage

variable {s : Stage α} {t : Nat} {player : Player α} {w : Wiring α} {limits : Limits}

/-- A timer whose player is no longer in its generation only becomes one that ran. -/
lemma after_fire_of_not_isCurrent {timer : Timer α} (ht : s.timers[t]? = some timer)
    (hstate : timer.state ≠ .fired) (hcurrent : ¬ s.IsCurrent timer.player timer.generation) :
    s.after w (.fire t) limits = s.withFired t timer := by
  have hadvance := Player.advance_of_not_current (w := w) (s := s.withFired t timer) hcurrent
    limits.depth
  rw [after_fire_of_some ht hstate, firedOne, noting, Playback.tryCatch_apply, hadvance]
  rfl

lemma after_stop (hw : w.QuietResets) (s : Stage α) (limits : Limits) :
    s.after w (.act .stop) limits = s.stopPlayer 0 := by
  have hstop : perform w (limits.depth + 1) (some 0) .stop s = .ok ⟨⟩ (s.stopPlayer 0) :=
    Player.stop_eq hw limits.depth 0 s
  rw [after_eq_stageOf]
  simp [operate, noting, hstop]

/-- A start begins with a stop. -/
lemma path_after_start {asked : Action → Prop} (hw : w.QuietResets) (hasks : w.Asks asked)
    (s : Stage α) (limits : Limits) :
    Path asked ⟨[], s.stopPlayer 0⟩ ⟨[], s.after w (.act .start) limits⟩ := by
  rw [after_eq_stageOf]
  exact path_noting (Player.path_start (p := 0) hw (isPath_replies hw hasks limits.depth) [] s)

omit [Scalar α] in
/-- A start or a stop supersedes every timer that was armed before it, for good. -/
lemma superseded_of_later_stopPlayer (hsound : Sound ⟨[], s⟩) (hone : s.players = [player])
    {s' : Stage α} (hlater : Later (s.stopPlayer 0) s') (ht : t < s.timers.length)
    {timer : Timer α} (htimer : s'.timers[t]? = some timer) : s'.Superseded timer := by
  have hp : s.players[0]? = some player := by simp [hone]
  obtain ⟨old, hold⟩ : ∃ old, s.timers[t]? = some old := ⟨_, List.getElem?_eq_getElem ht⟩
  have hzero : old.player = 0 := player_eq_zero hsound hone hold
  have hle := (hsound.player hp).notAhead hold hzero
  obtain ⟨_, hmid, hplayer, hgen⟩ := (Later.stopPlayer s 0).timers hold
  obtain ⟨timer', htimer', hplayer', hgen'⟩ := hlater.timers hmid
  obtain rfl : timer' = timer := by
    rw [htimer', Option.some.injEq] at htimer
    exact htimer
  obtain ⟨player', hp', hgrows⟩ := hlater.players (Player.getElem?_stopPlayer hp)
  -- the stop began a generation after that of the timer, and generations only grow
  have hgrown : player.generation + 1 ≤ player'.generation := hgrows.generation
  intro other hother
  rw [hplayer', hplayer, hzero, hp', Option.some.injEq] at hother
  subst hother
  omega

/-! ### Silence after a stop -/

/-- The player does not run, and nothing was announced since the log was the given one. -/
def IdlesSince (log : List (Entry α)) (s : Stage α) : Prop :=
  ∃ player new, s.players = [player] ∧ player.running = false ∧ s.log = log ++ new ∧ Silent new

/-- A player that does not run keeps still until it is started. -/
lemma idlesSince_after {log : List (Entry α)} (hw : w.QuietResets) (hsound : Sound ⟨[], s⟩)
    (hidle : s.IdlesSince log) {operation : Operation α} (hsolo : operation.Asks Action.IsSolo)
    (hstart : operation ≠ .act .start) (limits : Limits) :
    (s.after w operation limits).IdlesSince log := by
  obtain ⟨player, new, hone, hstopped, hlog, hsilent⟩ := hidle
  have hnoted : ∀ event : Event α, event.isStep = false → (s.noted event).IdlesSince log := by
    intro event hevent
    refine ⟨player, new ++ [⟨s.clock, event⟩], hone, hstopped, by simp [noted, hlog], ?_⟩
    intro entry hentry
    rcases List.mem_append.mp hentry with hold | hnew
    · exact hsilent entry hold
    · rw [List.mem_singleton.mp hnew]
      exact hevent
  cases operation with
  | act action =>
    cases action with
    | start => exact absurd rfl hstart
    | fail fault => exact hnoted (.raised fault) rfl
    | stop =>
      rw [after_stop hw]
      refine ⟨player.halted, new ++ (s.partings player).map (⟨s.clock, ·⟩), ?_, rfl, ?_, ?_⟩
      · simp [stopPlayer, hone]
      · simp [stopPlayer, hone, hlog]
      · intro entry hentry
        rcases List.mem_append.mp hentry with hold | hnew
        · exact hsilent entry hold
        · exact silent_partings s player s.clock entry hnew
    | startLight => exact hsolo.elim
    | stopLight => exact hsolo.elim
    | stopAll => exact hsolo.elim
  | advance time =>
    -- nothing is due while time passes
    have hpending := (oneChain_of_sound hsound hone).stopped hstopped
    have hnext := nextDue?_of_pendingTimers_eq_nil hpending (s.clock + time)
    rw [after_advance, runDue_of_none hnext]
    exact ⟨player, new, hone, hstopped, hlog, hsilent⟩
  | fire t =>
    rcases after_fire w limits s t with hnothing | ⟨timer, ht, hstate, -⟩
    · rw [hnothing]
      exact hnoted .nothingToFire rfl
    · -- the only player does not run, so no timer moves it on
      rw [after_fire_of_not_isCurrent ht hstate]
      · exact ⟨player, new, hone, hstopped, hlog, hsilent⟩
      · rintro ⟨other, hother, hrun, -⟩
        have hmem := List.mem_of_getElem? hother
        rw [hone, List.mem_singleton] at hmem
        subst hmem
        rw [hstopped] at hrun
        exact absurd hrun (by simp)

/-- A stopped player keeps still through any run without a start. -/
lemma idlesSince_run {log : List (Entry α)} (hw : w.QuietResets) (hasks : w.Asks Action.IsSolo)
    (hsound : Sound ⟨[], s⟩) (hidle : s.IdlesSince log) {operations : List (Operation α)}
    (hsolo : ∀ operation ∈ operations, operation.Asks Action.IsSolo)
    (hstart : .act .start ∉ operations) (limits : Limits) :
    (s.run w limits operations).IdlesSince log := by
  induction operations generalizing s with
  | nil => exact hidle
  | cons operation operations ih =>
    rw [List.mem_cons, not_or] at hstart
    have hoperation := hsolo operation (by simp)
    exact ih ((path_after hw hasks hsound limits hoperation).sound hsound)
      (idlesSince_after hw hsound hidle hoperation (Ne.symm hstart.1) limits)
      (fun other hother => hsolo other (by simp [hother])) hstart.2

/-! ### Every run of a player on its own -/

/-- A stage with one player that was just made. -/
def solo (clock : α) (name : String) (timeline : Timeline α) (tag : String) (hearsReset : Bool) :
    Stage α where
  clock := clock
  players := [{ name := name, timeline := timeline, tag := tag, hearsReset := hearsReset }]

omit [Scalar α] in
lemma sound_solo (clock : α) (name : String) (timeline : Timeline α) (tag : String)
    (hearsReset : Bool) : Sound ⟨[], solo clock name timeline tag hearsReset⟩ where
  owner ht := by simp [solo] at ht
  turnOwner hturn := by simp at hturn
  distinct := .nil
  player {p player} hp := by
    have hmem := List.mem_of_getElem? hp
    rw [solo, List.mem_singleton] at hmem
    subst hmem
    exact .fresh ⟨rfl, rfl, rfl⟩ (fun ht => by simp [solo] at ht) (fun hturn => by simp at hturn)

/-- **A player has at most one live chain of timers.** Its listener may fail, start it and stop
it, and may do so while it is called. After every run of starts, stops, passing time and timers
that run whenever they like, the player has one chain of timers; it runs if and only if it was
started and not stopped since; it announced segments only while it was playing; after a stop
nothing is announced until the next start; a start or a stop supersedes every timer that was armed
before; and a timer that was called off or superseded changes nothing when it runs, but that it
ran. -/
theorem solo_run_oneChain (w : Wiring α) (hw : w.QuietResets) (hasks : w.Asks Action.IsSolo)
    (limits : Limits) (clock : α) (name : String) (timeline : Timeline α) (tag : String)
    (hearsReset : Bool) (operations : List (Operation α))
    (hsolo : ∀ operation ∈ operations, operation.Asks Action.IsSolo) :
    let s := (solo clock name timeline tag hearsReset).run w limits operations
    ∃ player, s.players = [player] ∧ player.timeline = timeline ∧ s.OneChain player ∧
      playsAfter false s.log = player.running ∧ StepsWhilePlaying false s.log ∧
      (∀ rest : List (Operation α), (∀ operation ∈ rest, operation.Asks Action.IsSolo) →
        .act .start ∉ rest →
        ((s.after w (.act .stop) limits).run w limits rest).IdlesSince s.log) ∧
      (∀ operation : Operation α, operation = .act .start ∨ operation = .act .stop →
        ∀ rest : List (Operation α), (∀ operation ∈ rest, operation.Asks Action.IsSolo) →
        ∀ t timer, t < s.timers.length →
        ((s.after w operation limits).run w limits rest).timers[t]? = some timer →
        ((s.after w operation limits).run w limits rest).Superseded timer) ∧
      (∀ t timer, s.timers[t]? = some timer → timer.state ≠ .fired →
        timer.state = .cancelled ∨ s.Superseded timer →
        s.after w (.fire t) limits =
          { s with timers := s.timers.set t { timer with state := .fired } }) := by
  intro s
  have hstart := sound_solo clock name timeline tag hearsReset
  have hpath : Path Action.IsSolo ⟨[], solo clock name timeline tag hearsReset⟩ ⟨[], s⟩ :=
    path_run hw hasks hstart limits hsolo
  have hsound := hpath.sound hstart
  obtain ⟨player, hlone⟩ : ∃ player, Lone s player := hpath.lone ⟨rfl, rfl, trivial⟩
  have ⟨hone, hplays, hsteps⟩ := hlone
  refine ⟨player, hone, ?_, oneChain_of_sound hsound hone, hplays, hsteps, ?_, ?_, ?_⟩
  · obtain ⟨player', hp, hgrows⟩ := hpath.later.players (p := 0) rfl
    obtain ⟨-, rfl⟩ := hlone.eq_of_getElem? hp
    exact hgrows.timeline
  · intro rest hrest hnostart
    have hsound' : Sound ⟨[], s.after w (.act .stop) limits⟩ := by
      rw [after_stop hw]
      exact hsound.stopPlayer 0
    refine idlesSince_run hw hasks hsound' ?_ hrest hnostart limits
    rw [after_stop hw]
    exact ⟨player.halted, (s.partings player).map (⟨s.clock, ·⟩), by simp [stopPlayer, hone], rfl,
      by simp [stopPlayer, hone], silent_partings s player s.clock⟩
  · intro operation hoperation rest hrest t timer ht htimer
    -- a start begins with a stop, so both go on from the stopped player
    have hbegins : Path Action.IsSolo ⟨[], s.stopPlayer 0⟩ ⟨[], s.after w operation limits⟩ := by
      rcases hoperation with rfl | rfl
      · exact path_after_start hw hasks s limits
      · rw [after_stop hw]
    have hrest := path_run hw hasks (hbegins.sound (hsound.stopPlayer 0)) limits hrest
    have hlater := hbegins.later.trans hrest.later
    exact superseded_of_later_stopPlayer hsound hone hlater ht htimer
  · intro t timer ht hstate hlate
    refine after_fire_of_not_isCurrent ht hstate (Superseded.not_isCurrent ?_)
    exact hlate.elim (superseded_of_cancelled hsound ht) id

/-- A listener that starts its player again at its second call and fails at its fourth. -/
def restless : Wiring Rat where
  scriptOf _ := { onStep := fun call _ _ =>
    if call = 2 then [.stop, .start] else if call = 4 then [.fail (.listener "tired")] else [] }
  timelineOf _ := .ok []

/-- Two segments of one second. -/
def blink : Timeline Rat := [⟨true, 1, "W", 1⟩, ⟨false, 1, "W", 1⟩]

/-- After a run in which the listener starts the player again and a timer runs that was called off,
the player has one chain of timers and runs. -/
theorem restless_run_oneChain :
    ∃ player, ((solo 0 "buoy" blink "x" true).run restless {}
        [.act .start, .act .stop, .act .start, .fire 0]).players = [player] ∧
      player.running = true ∧
      ((solo 0 "buoy" blink "x" true).run restless {}
        [.act .start, .act .stop, .act .start, .fire 0]).OneChain player := by
  have hasks : restless.Asks Action.IsSolo := by
    intro tag call index segment action haction
    simp only [restless] at haction
    split at haction
    · simp only [List.mem_cons, List.not_mem_nil, or_false] at haction
      rcases haction with rfl | rfl <;> trivial
    · split at haction
      · rw [List.mem_singleton.mp haction]
        trivial
      · simp at haction
  have hruns : ((solo 0 "buoy" blink "x" true).run restless {}
      [.act .start, .act .stop, .act .start, .fire 0]).players.map (·.running) = [true] := by
    decide +kernel
  obtain ⟨player, hone, -, hchain, -⟩ := solo_run_oneChain restless (fun _ _ => rfl) hasks {} 0
    "buoy" blink "x" true [.act .start, .act .stop, .act .start, .fire 0]
    (by simp [Operation.Asks, Action.IsSolo])
  refine ⟨player, hone, ?_, hchain⟩
  rw [hone] at hruns
  simpa using hruns

end Stage

end Seamark
