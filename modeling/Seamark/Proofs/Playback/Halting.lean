import Seamark.Proofs.Playback.Chain
import Seamark.Proofs.Playback.Faults

/-!
# A player whose listener fails

One player, which is started, stopped and moved on by time, with listeners that may fail at any
call but never call back.  The listener hears of segments in two kinds of calls, a start and a timer
that runs (`Makes`).  A call that begins a segment first announces it (`Opens`); if the listener
fails, the call ends with the player stopped at this segment and nothing pending (`Quits`), and the
operation ends there.
-/

namespace Seamark

variable {α : Type}

/-- What is done to a player on its own from outside: it is started, it is stopped, time passes. -/
def Operation.IsPlaying : Operation α → Prop
  | .act .start | .act .stop | .advance _ => True
  | _ => False

/-- A reset was announced. -/
def Event.isReset : Event α → Bool
  | .reset _ => true
  | _ => false

/-- What a player is, apart from what it does. -/
def Player.kind (player : Player α) : Player α where
  name := player.name
  timeline := player.timeline
  tag := player.tag
  hearsReset := player.hearsReset

lemma silent_nil : Silent ([] : List (Entry α)) :=
  fun _ h => absurd h List.not_mem_nil

lemma silent_singleton {entry : Entry α} (h : entry.event.isStep = false) : Silent [entry] := by
  intro other hother
  rwa [List.mem_singleton.mp hother]

lemma Silent.append {log log' : List (Entry α)} (h : Silent log) (h' : Silent log') :
    Silent (log ++ log') := by
  intro entry hentry
  rcases List.mem_append.mp hentry with hold | hnew
  · exact h entry hold
  · exact h' entry hnew

namespace Stage

/-- There is one player, of some kind. -/
def HoldsOne (kind : Player α) (s : Stage α) : Prop :=
  ∃ player, s.players = [player] ∧ player.kind = kind

/-! ### Stopping the only player -/

section

variable {s : Stage α} {player : Player α}

lemma getElem?_zero (hone : s.players = [player]) : s.players[0]? = some player := by simp [hone]

lemma stopped_players_of_one (hone : s.players = [player]) (w : Wiring α) (depth : Nat) :
    (s.stopped w depth 0).players = [player.halted] := by
  simp [stopPlayer, hone]

lemma stopped_log_of_one (hone : s.players = [player]) (w : Wiring α) (depth : Nat) :
    (s.stopped w depth 0).log = s.log ++ (s.partingsOf w depth player).map (⟨s.clock, ·⟩) := by
  rw [stopped_of_some (getElem?_zero hone)]

lemma silent_partingsOf (w : Wiring α) (depth : Nat) (s : Stage α) (player : Player α) (time : α) :
    Silent ((s.partingsOf w depth player).map (⟨time, ·⟩)) :=
  silent_partings s _ time

/-- A player that is stopped tells of one reset, if its listener wants to hear of it. -/
lemma countP_isReset_partingsOf (w : Wiring α) (depth : Nat) (s : Stage α) (player : Player α) :
    (s.partingsOf w depth player).countP Event.isReset = if player.hearsReset then 1 else 0 := by
  unfold partingsOf partings
  simp only [List.countP_append]
  grind [Event.isReset]

end

variable [Scalar α]

/-! ### What an operation calls -/

/-- The stage when some time is to pass and a number of timers have run. -/
def midway (w : Wiring α) (depth : Nat) (s : Stage α) (time : α) (firings : Nat) : Stage α :=
  Playback.stageOf (runDue w depth (s.clock + time) firings s)

/-- The calls of a player that an operation makes, each with the stage in which it is made: a start
is one, and while time passes every timer that runs is one. -/
inductive Makes (w : Wiring α) (limits : Limits) (s : Stage α) :
    Operation α → Playback α Unit → Stage α → Prop
  /-- The player is started. -/
  | start : Makes w limits s (.act .start) (Player.start w (react w limits.depth) 0) s
  /-- A timer moves the player on, after others have run. -/
  | timer {time : α} {firings t : Nat} {timer : Timer α} (hfirings : firings < limits.firings)
      (hdue : nextDue? (s.clock + time) (s.midway w limits.depth time firings).timers =
        some (timer, t)) :
      Makes w limits s (.advance time)
        (Player.advance w (react w limits.depth) timer.player timer.generation)
        (withFired { s.midway w limits.depth time firings with
          clock := greater (s.midway w limits.depth time firings).clock timer.due } t timer)

/-- A call announces a segment, by an entry of the log. -/
structure Announces {β : Type} (call : Playback α β) (s : Stage α) (n : Nat) (entry : Entry α) :
    Prop where
  /-- The entry is new. -/
  new : s.log.length ≤ n
  /-- It is in the log after the call. -/
  logged : (Playback.stageOf (call s)).log[n]? = some entry
  /-- It is about a segment. -/
  isStep : entry.event.isStep = true

omit [Scalar α] in
/-- What a call adds to the log is not silent if it announces something. -/
lemma Announces.not_silent {β : Type} {call : Playback α β} {s : Stage α} {n : Nat}
    {entry : Entry α} (h : Announces call s n entry) {new : List (Entry α)}
    (hlog : (Playback.stageOf (call s)).log = s.log ++ new) : ¬ Silent new := by
  intro hsilent
  have hentry := h.logged
  rw [hlog, List.getElem?_append_right h.new] at hentry
  have hnot := hsilent entry (List.mem_of_getElem? hentry)
  simp [h.isStep] at hnot

/-- A call opens a turn: it announces the segment at the index of the running player, once, and
ends as the listener's answer to this announcement has it. -/
structure Opens (w : Wiring α) (depth : Nat) (call : Playback α Unit) (s s' : Stage α)
    (player : Player α) (segment : Segment α) : Prop where
  /-- The call ends by ending the turn. -/
  call_eq : call s = closed w depth ⟨0, player.generation, segment⟩ player
    (faultOf? depth ((w.scriptOf player.tag).onStep player.steps player.index segment)) s'
  /-- There is one player, at its next announcement. -/
  one : s'.players = [player] ∧
    ∃ before, s.players = [before] ∧ player.kind = before.kind ∧ player.steps = before.steps + 1
  /-- It runs. -/
  running : player.running = true
  /-- The segment is the one at its index. -/
  shown : player.timeline[player.index]? = some segment
  /-- The announcement is the last entry, and the only new one about a segment. -/
  log : ∃ before, Silent before ∧ s'.log = s.log ++ before ++
    [⟨s'.clock, .stepped player.tag player.index segment.color segment.level⟩]

section

variable {w : Wiring α} {depth : Nat} {s s' : Stage α} {player : Player α} {segment : Segment α}
  {call : Playback α Unit}

lemma stageOf_runDue_add (w : Wiring α) (depth : Nat) (target : α) (m n : Nat) (s : Stage α) :
    Playback.stageOf (runDue w depth target (m + n) s) = Playback.stageOf
      (runDue w depth target n (Playback.stageOf (runDue w depth target m s))) := by
  induction m generalizing s with
  | zero =>
    rw [Nat.zero_add]
    rfl
  | succ m ih =>
    cases hnext : nextDue? target s.timers with
    | none =>
      simp only [runDue_of_none hnext, Playback.stageOf_ok]
    | some entry => rw [Nat.add_right_comm, runDue_of_some hnext, runDue_of_some hnext, ih]

/-- A start whose reset does not fail opens a turn at the first segment. -/
lemma opens_start (hw : w.OnlyFails) (hone : s.players = [player])
    (hseg : player.timeline[0]? = some segment) (hreset : resetFault? w depth player = none) :
    Opens w depth (Player.start w (react w depth) 0) s
      ((s.stopped w depth 0).beginTurn 0 player.halted segment) player.halted.begun segment where
  call_eq := Player.start_eq_closed hw depth (getElem?_zero hone) hseg hreset
  one := ⟨by simp [beginTurn, stopPlayer, hone], player, hone, rfl, rfl⟩
  running := rfl
  shown := hseg
  log := by
    refine ⟨(s.partingsOf w depth player).map (⟨s.clock, ·⟩) ++
      [⟨s.clock, .playing player.name player.timeline.length player.timeline.total⟩],
      (silent_partingsOf w depth s player s.clock).append (silent_singleton rfl), ?_⟩
    simp [beginTurn, stopped_log_of_one hone, announcement, Player.begun, Player.halted]

/-- Moving the running player on opens a turn at its next segment. -/
lemma opens_advance (hw : w.OnlyFails) (hone : s.players = [player])
    (hrun : player.running = true) (hseg : player.timeline[player.nextIndex]? = some segment) :
    Opens w depth (Player.advance w (react w depth) 0 player.generation) s
      (s.nextTurn 0 player segment) player.moved segment where
  call_eq := Player.advance_eq_closed hw depth (getElem?_zero hone) hrun hseg
  one := ⟨by simp [nextTurn, hone], player, hone, rfl, rfl⟩
  running := hrun
  shown := hseg
  log := ⟨[], silent_nil, by simp [nextTurn, announcement, Player.moved]⟩

/-- A call that opens a turn adds one announcement to the log. -/
lemma Opens.log_eq (h : Opens w depth call s s' player segment) : ∃ before after,
    Silent before ∧ Silent after ∧ (Playback.stageOf (call s)).log = s.log ++ before ++
      ⟨s'.clock, .stepped player.tag player.index segment.color segment.level⟩ :: after := by
  obtain ⟨before, hbefore, hlog⟩ := h.log
  rw [h.call_eq]
  cases faultOf? depth ((w.scriptOf player.tag).onStep player.steps player.index segment) with
  | none =>
    refine ⟨before, [⟨s'.clock, .armed s'.timers.length segment.duration⟩], hbefore,
      silent_singleton rfl, ?_⟩
    simp [closed, armedFor, hlog]
  | some fault =>
    refine ⟨before, (s'.partingsOf w depth player).map (⟨s'.clock, ·⟩), hbefore,
      silent_partingsOf w depth s' player s'.clock, ?_⟩
    simp [closed, stopped_log_of_one h.one.1, hlog]

/-- After a call that opens a turn there is still one player of the kind. -/
lemma Opens.holdsOne (h : Opens w depth call s s' player segment) :
    (Playback.stageOf (call s)).HoldsOne player.kind := by
  rw [h.call_eq]
  cases faultOf? depth ((w.scriptOf player.tag).onStep player.steps player.index segment) with
  | none => exact ⟨{ player with timer := some s'.timers.length }, by
      simp [closed, armedFor, h.one.1], rfl⟩
  | some fault => exact ⟨player.halted, by simp [closed, stopPlayer, h.one.1], rfl⟩

omit [Scalar α] in
/-- The only new entry about a segment is the announcement. -/
lemma eq_of_isStep {log before after : List (Entry α)} {said entry : Entry α} {n : Nat}
    (hbefore : Silent before) (hafter : Silent after) (hnew : log.length ≤ n)
    (hentry : (log ++ before ++ said :: after)[n]? = some entry)
    (hstep : entry.event.isStep = true) : n = (log ++ before).length ∧ entry = said := by
  have hsilent : ∀ e : Entry α, e ∈ before ∨ e ∈ after → e ≠ entry := by
    rintro e (he | he) rfl
    · simp [hbefore e he] at hstep
    · simp [hafter e he] at hstep
  rw [List.getElem?_append] at hentry
  split at hentry
  case isTrue hlt =>
    rw [List.getElem?_append_right hnew] at hentry
    exact absurd rfl (hsilent entry (.inl (List.mem_of_getElem? hentry)))
  case isFalse hle =>
    cases hsub : n - (log ++ before).length with
    | zero =>
      rw [hsub, List.getElem?_cons_zero, Option.some.injEq] at hentry
      exact ⟨by omega, hentry.symm⟩
    | succ m =>
      rw [hsub, List.getElem?_cons_succ] at hentry
      exact absurd rfl (hsilent entry (.inr (List.mem_of_getElem? hentry)))

/-! ### Calls -/

/-- A call of the only player, of some kind: it announces nothing, or it opens a turn. -/
def IsCall (w : Wiring α) (depth : Nat) (kind : Player α) (call : Playback α Unit) (s : Stage α) :
    Prop :=
  (∃ new, Silent new ∧ (Playback.stageOf (call s)).log = s.log ++ new ∧
    (Playback.stageOf (call s)).HoldsOne kind) ∨
  ∃ s' player segment, Opens w depth call s s' player segment ∧ player.kind = kind

variable {kind : Player α}

lemma IsCall.holdsOne (h : IsCall w depth kind call s) :
    (Playback.stageOf (call s)).HoldsOne kind := by
  rcases h with ⟨_, _, _, hholds⟩ | ⟨_, player, _, hopens, rfl⟩
  · exact hholds
  · exact hopens.holdsOne

lemma IsCall.log_grows (h : IsCall w depth kind call s) :
    s.log <+: (Playback.stageOf (call s)).log := by
  rcases h with ⟨new, _, hlog, _⟩ | ⟨_, _, _, hopens, _⟩
  · exact hlog ▸ List.prefix_append _ _
  · obtain ⟨before, after, -, -, hlog⟩ := hopens.log_eq
    rw [hlog, List.append_assoc]
    exact List.prefix_append _ _

variable (hw : w.OnlyFails)
include hw

lemma isCall_start (hone : s.players = [player]) (depth : Nat) :
    IsCall w depth player.kind (Player.start w (react w depth) 0) s := by
  have hp := getElem?_zero hone
  have hstopped : (s.stopped w depth 0).HoldsOne player.kind :=
    ⟨player.halted, stopped_players_of_one hone w depth, rfl⟩
  have hlog := stopped_log_of_one hone w depth
  have hsilent := silent_partingsOf w depth s player s.clock
  cases hseg : player.timeline[0]? with
  | none =>
    rw [IsCall, Player.start_eq_ending_of_empty hw depth hp (by simpa using hseg),
      Playback.stageOf_ending]
    exact .inl ⟨_, hsilent, hlog, hstopped⟩
  | some segment =>
    cases hreset : resetFault? w depth player with
    | some fault =>
      rw [IsCall, Player.start_of_resetFault hw depth hp hreset]
      exact .inl ⟨_, hsilent, hlog, hstopped⟩
    | none => exact .inr ⟨_, _, segment, opens_start hw hone hseg hreset, rfl⟩

lemma isCall_advance (hsound : Sound ⟨[], s⟩) (hone : s.players = [player]) {t : Nat}
    {timer : Timer α} (ht : s.timers[t]? = some timer) (depth : Nat) :
    IsCall w depth player.kind
      (Player.advance w (react w depth) timer.player timer.generation) (s.withFired t timer) := by
  have hzero := player_eq_zero hsound hone ht
  have hp := getElem?_zero hone
  by_cases hcurrent : s.IsCurrent timer.player timer.generation
  · obtain ⟨other, hother, hrun, hgen⟩ := hcurrent
    obtain rfl : other = player := by simpa [hzero, hone] using hother.symm
    obtain ⟨segment, hseg⟩ := hsound.exists_next hp hrun
    rw [hzero, ← hgen]
    exact .inr ⟨_, _, _, opens_advance (s := s.withFired t timer) hw hone hrun hseg, rfl⟩
  · rw [IsCall, Player.advance_of_not_current (s := s.withFired t timer) hcurrent]
    exact .inl ⟨[], silent_nil, by simp, player, hone, rfl⟩

lemma holdsOne_firedOne (hsound : Sound ⟨[], s⟩) (h : s.HoldsOne kind) {t : Nat}
    {timer : Timer α} (ht : s.timers[t]? = some timer) (depth : Nat) :
    (s.firedOne w depth t timer).HoldsOne kind := by
  obtain ⟨player, hone, rfl⟩ := h
  exact Playback.stageOf_noting (HoldsOne player.kind)
    (isCall_advance hw hsound hone ht depth).holdsOne fun _ _ h => h

lemma holdsOne_runDue (hsound : Sound ⟨[], s⟩) (h : s.HoldsOne kind) (depth : Nat) (target : α)
    (firings : Nat) : (Playback.stageOf (runDue w depth target firings s)).HoldsOne kind :=
  stageOf_runDue hw (HoldsOne kind) (fun _ _ h => h)
    (fun _ _ _ hsound h ht => holdsOne_firedOne hw hsound h ht depth) hsound h target firings

lemma holdsOne_after (hsound : Sound ⟨[], s⟩) (h : s.HoldsOne kind) (limits : Limits)
    {operation : Operation α} (hplaying : operation.IsPlaying) :
    (s.after w operation limits).HoldsOne kind := by
  cases operation with
  | advance time =>
    rw [after_advance]
    exact holdsOne_runDue hw hsound h limits.depth _ limits.firings
  | fire t => exact hplaying.elim
  | act action =>
    rw [after_eq_stageOf]
    obtain ⟨player, hone, rfl⟩ := h
    refine Playback.stageOf_noting (HoldsOne player.kind) ?_ fun _ _ h => h
    cases action with
    | start => exact (isCall_start hw hone limits.depth).holdsOne
    | stop =>
      show (Playback.stageOf (Player.stop w (react w limits.depth) 0 s)).HoldsOne player.kind
      rw [Player.stop_eq_ending hw limits.depth (getElem?_zero hone), Playback.stageOf_ending]
      exact ⟨player.halted, stopped_players_of_one hone w limits.depth, rfl⟩
    | fail => exact hplaying.elim
    | startLight => exact hplaying.elim
    | stopLight => exact hplaying.elim
    | stopAll => exact hplaying.elim

/-- Along a run of a player on its own there is one player of its kind. -/
lemma holdsOne_run (hsound : Sound ⟨[], s⟩) (h : s.HoldsOne kind) (limits : Limits)
    {operations : List (Operation α)} (hplaying : ∀ operation ∈ operations, operation.IsPlaying) :
    (s.run w limits operations).HoldsOne kind := by
  induction operations generalizing s with
  | nil => exact h
  | cons operation operations ih =>
    exact ih (sound_after hw hsound limits operation)
      (holdsOne_after hw hsound h limits (hplaying operation (by simp)))
      fun other hother => hplaying other (by simp [hother])

/-! ### The calls of an operation -/

variable {limits : Limits} {operation : Operation α} {s₀ : Stage α}

lemma sound_midway (hsound : Sound ⟨[], s⟩) (depth : Nat) (time : α) (firings : Nat) :
    Sound ⟨[], s.midway w depth time firings⟩ :=
  sound_runDue hw hsound depth _ firings

lemma Makes.isCall (hmakes : Makes w limits s operation call s₀) (hsound : Sound ⟨[], s⟩)
    (h : s.HoldsOne kind) : IsCall w limits.depth kind call s₀ := by
  cases hmakes with
  | start =>
    obtain ⟨player, hone, rfl⟩ := h
    exact isCall_start hw hone limits.depth
  | @timer time firings t timer hfirings hdue =>
    obtain ⟨player, hone, rfl⟩ := holdsOne_runDue hw hsound h limits.depth (s.clock + time) firings
    obtain ⟨ht, -, -⟩ := nextDue?_eq_some hdue
    have hmidway := sound_midway hw hsound limits.depth time firings
    exact isCall_advance (s := { s.midway w limits.depth time firings with
      clock := greater (s.midway w limits.depth time firings).clock timer.due }) hw
      (hmidway.congr rfl rfl) hone ht limits.depth

lemma Makes.sound (hmakes : Makes w limits s operation call s₀) (hsound : Sound ⟨[], s⟩) :
    Sound ⟨[], Playback.stageOf (call s₀)⟩ := by
  cases hmakes with
  | start => exact Player.keepsSound_start hw limits.depth 0 s hsound
  | @timer time firings t timer hfirings hdue =>
    obtain ⟨ht, hpending, -⟩ := nextDue?_eq_some hdue
    have hmidway := sound_midway hw hsound limits.depth time firings
    exact Player.sound_advance hw (s := { s.midway w limits.depth time firings with
      clock := greater (s.midway w limits.depth time firings).clock timer.due })
      (hmidway.congr rfl rfl) ht (by simp [hpending]) limits.depth

omit hw in
lemma midway_succ_of_none {time : α} {firings : Nat}
    (hnext : nextDue? (s.clock + time) (s.midway w depth time firings).timers = none) (n : Nat) :
    s.midway w depth time (firings + n) = s.midway w depth time firings := by
  rw [midway, stageOf_runDue_add, ← midway, runDue_of_none hnext]
  rfl

omit hw in
lemma midway_succ_of_some {time : α} {firings t : Nat} {timer : Timer α}
    (hnext : nextDue? (s.clock + time) (s.midway w depth time firings).timers = some (timer, t)) :
    s.midway w depth time (firings + 1) =
      firedOne w depth t timer { s.midway w depth time firings with
        clock := greater (s.midway w depth time firings).clock timer.due } := by
  rw [midway, stageOf_runDue_add, ← midway, runDue_of_some hnext]
  rfl

omit hw in
/-- An operation ends with a call that a fault leaves, if nothing is pending then. -/
lemma Makes.after_eq (hmakes : Makes w limits s operation call s₀) {fault : Fault}
    (hcall : call s₀ = .error fault s') (hidle : s'.pendingTimers = []) :
    s.after w operation limits =
      { s'.noted (.raised fault) with clock := (s.after w operation limits).clock } := by
  cases hmakes with
  | start =>
    have hperform : perform w (limits.depth + 1) (some 0) .start s = .error fault s' := hcall
    have hafter : s.after w (.act .start) limits = s'.noted (.raised fault) := by
      rw [after_eq_stageOf]
      simp [operate, noting, hperform, note_apply]
    rw [hafter]
  | @timer time firings t timer hfirings hdue =>
    obtain ⟨n, hn⟩ := Nat.exists_eq_add_of_lt hfirings
    have hfired : s.midway w limits.depth time (firings + 1) = s'.noted (.raised fault) := by
      rw [midway_succ_of_some hdue, firedOne, noting, Playback.tryCatch_apply, hcall]
      rfl
    -- nothing is due any more, so no other timer runs
    have hnone : nextDue? (s.clock + time)
        (s.midway w limits.depth time (firings + 1)).timers = none := by
      rw [hfired]
      exact nextDue?_of_pendingTimers_eq_nil (s := s'.noted (.raised fault)) hidle _
    have hlast := midway_succ_of_none hnone n
    rw [hfired, show firings + 1 + n = limits.firings by omega, midway] at hlast
    rw [after_advance, hlast]

/-! ### Every announcement is made by a call -/

omit hw [Scalar α] in
/-- Noting a fault announces nothing. -/
lemma log_noting (m : Playback α Unit) (s : Stage α) : ∃ after, Silent after ∧
    (Playback.stageOf (noting m s)).log = (Playback.stageOf (m s)).log ++ after := by
  rw [noting, Playback.tryCatch_apply]
  cases m s with
  | ok _ s' => exact ⟨[], silent_nil, by simp⟩
  | error fault s' => exact ⟨[⟨s'.clock, .raised fault⟩], silent_singleton rfl, rfl⟩

omit hw [Scalar α] in
lemma isStep_noting {m : Playback α Unit} {n : Nat} {entry : Entry α}
    (hentry : (Playback.stageOf (noting m s)).log[n]? = some entry)
    (hstep : entry.event.isStep = true) :
    (Playback.stageOf (m s)).log[n]? = some entry := by
  obtain ⟨after, hafter, hlog⟩ := log_noting m s
  rw [hlog, List.getElem?_append] at hentry
  split at hentry
  · exact hentry
  · have hsilent := hafter entry (List.mem_of_getElem? hentry)
    simp [hsilent] at hstep

/-- What was announced while some time passes was announced by a timer that ran. -/
lemma exists_makes_midway (hsound : Sound ⟨[], s⟩) (h : s.HoldsOne kind) {time : α} {n : Nat}
    {entry : Entry α} (hnew : s.log.length ≤ n) (hstep : entry.event.isStep = true)
    {firings : Nat} (hfirings : firings ≤ limits.firings)
    (hentry : (s.midway w limits.depth time firings).log[n]? = some entry) :
    ∃ call s₀, Makes w limits s (.advance time) call s₀ ∧ Announces call s₀ n entry := by
  induction firings with
  | zero =>
    have hlt := (List.getElem?_eq_some_iff.mp hentry).1
    exact absurd hlt (by simpa [midway, runDue] using hnew)
  | succ firings ih =>
    cases hnext : nextDue? (s.clock + time) (s.midway w limits.depth time firings).timers with
    | none =>
      rw [midway_succ_of_none hnext] at hentry
      exact ih (by omega) hentry
    | some next =>
      have hmakes : Makes w limits s (.advance time) _ _ := .timer hfirings hnext
      rw [midway_succ_of_some hnext] at hentry
      have hcall := isStep_noting hentry hstep
      by_cases hlt : n < (s.midway w limits.depth time firings).log.length
      · -- the entry was there before this timer ran
        have hprefix := (hmakes.isCall hw hsound h).log_grows
        refine ih (by omega) ?_
        have hlog := List.prefix_iff_getElem?.mp hprefix n hlt
        rw [hcall] at hlog
        exact (List.getElem?_eq_getElem hlt).trans hlog.symm
      · exact ⟨_, _, hmakes, not_lt.mp hlt, hcall, hstep⟩

/-- Whatever an operation announces, it announces in a call that it makes. -/
lemma exists_makes (hsound : Sound ⟨[], s⟩) (h : s.HoldsOne kind) (hplaying : operation.IsPlaying)
    {n : Nat} {entry : Entry α} (hnew : s.log.length ≤ n) (hstep : entry.event.isStep = true)
    (hentry : (s.after w operation limits).log[n]? = some entry) :
    ∃ call s₀, Makes w limits s operation call s₀ ∧ Announces call s₀ n entry := by
  cases operation with
  | advance time =>
    rw [after_advance] at hentry
    exact exists_makes_midway hw hsound h hnew hstep le_rfl hentry
  | fire t => exact hplaying.elim
  | act action =>
    rw [after_eq_stageOf] at hentry
    have hcall := isStep_noting hentry hstep
    cases action with
    | start => exact ⟨_, _, .start, hnew, hcall, hstep⟩
    | stop =>
      -- stopping announces no segment
      obtain ⟨player, hone, -⟩ := h
      change (Playback.stageOf (Player.stop w (react w limits.depth) 0 s)).log[n]? = _ at hcall
      rw [Player.stop_eq_ending hw limits.depth (getElem?_zero hone), Playback.stageOf_ending,
        stopped_log_of_one hone, List.getElem?_append_right hnew] at hcall
      have hsilent := silent_partingsOf w limits.depth s player s.clock entry
        (List.mem_of_getElem? hcall)
      simp [hsilent] at hstep
    | fail => exact hplaying.elim
    | startLight => exact hplaying.elim
    | stopLight => exact hplaying.elim
    | stopAll => exact hplaying.elim

/-! ### A call that a fault leaves -/

/-- The only player rests: it does not run and remembers no timer, nothing is pending, and nothing
was announced since the log was the given one. -/
structure Rests (kind : Player α) (log : List (Entry α)) (s : Stage α) : Prop where
  /-- There is one player of the kind, which does not run. -/
  one : ∃ player, s.players = [player] ∧ player.kind = kind ∧ player.running = false ∧
    player.timer = none
  /-- No timer is pending. -/
  idle : s.pendingTimers = []
  /-- Nothing was announced. -/
  silent : ∃ new, s.log = log ++ new ∧ Silent new

/-- A player has quit at a segment that was announced by an entry of the log: it is stopped at the
index of the segment, nothing is pending, and since the announcement one reset was announced, if its
listener wants to hear of it, and no segment. -/
structure Quits (kind : Player α) (index n : Nat) (s : Stage α) : Prop where
  /-- There is one player of the kind, stopped at the index. -/
  one : ∃ player, s.players = [player] ∧ player.kind = kind ∧ player.running = false ∧
    player.index = index ∧ player.timer = none
  /-- No timer is pending. -/
  idle : s.pendingTimers = []
  /-- No other segment was announced. -/
  silent : Silent (s.log.drop (n + 1))
  /-- One reset was announced. -/
  resets : (s.log.drop (n + 1)).countP (·.event.isReset) = if kind.hearsReset then 1 else 0

omit hw in
/-- A call that announces a segment opens a turn at it. -/
lemma IsCall.opens (h : IsCall w depth kind call s) {n : Nat} {entry : Entry α}
    (hannounces : Announces call s n entry) : ∃ s' player segment,
      Opens w depth call s s' player segment ∧ player.kind = kind ∧
      entry = ⟨s'.clock, .stepped player.tag player.index segment.color segment.level⟩ := by
  rcases h with ⟨new, hsilent, hlog, -⟩ | ⟨s', player, segment, hopens, hkind⟩
  · exact absurd hsilent (hannounces.not_silent hlog)
  · have hentry := hannounces.logged
    obtain ⟨before, after, hbefore, hafter, hlog⟩ := hopens.log_eq
    rw [hlog] at hentry
    obtain ⟨-, rfl⟩ := eq_of_isStep hbefore hafter hannounces.new hentry hannounces.isStep
    exact ⟨s', player, segment, hopens, hkind, rfl⟩

omit hw in
/-- If the listener fails at the announcement that opens a turn, the player has quit. -/
lemma Opens.quits (h : Opens w depth call s s' player segment) {fault : Fault}
    (hsound : Sound ⟨[], Playback.stageOf (call s)⟩)
    (hfault : faultOf? depth ((w.scriptOf player.tag).onStep player.steps player.index segment) =
      some fault)
    {n : Nat} {entry : Entry α} (hannounces : Announces call s n entry) :
    call s = .error ((resetFault? w depth player).getD fault) (s'.stopped w depth 0) ∧
      Quits player.kind player.index n (s'.stopped w depth 0) := by
  have hcall : call s =
      .error ((resetFault? w depth player).getD fault) (s'.stopped w depth 0) := by
    rw [h.call_eq, hfault]
    rfl
  obtain ⟨hone, -⟩ := h.one
  obtain ⟨before, hbefore, hlog⟩ := h.log
  have hlogged : (s'.stopped w depth 0).log = s.log ++ before ++
      ⟨s'.clock, .stepped player.tag player.index segment.color segment.level⟩ ::
        (s'.partingsOf w depth player).map (⟨s'.clock, ·⟩) := by
    rw [stopped_log_of_one hone, hlog, List.append_assoc, List.singleton_append]
  have hentry := hannounces.logged
  rw [hcall, Playback.stageOf_error] at hsound hentry
  rw [hlogged] at hentry
  have hsilent := silent_partingsOf w depth s' player s'.clock
  obtain ⟨rfl, -⟩ := eq_of_isStep hbefore hsilent hannounces.new hentry hannounces.isStep
  -- what was noted since the announcement is what the stop told
  have hdrop : (s'.stopped w depth 0).log.drop ((s.log ++ before).length + 1) =
      (s'.partingsOf w depth player).map (⟨s'.clock, ·⟩) := by
    rw [hlogged, ← List.drop_drop, List.drop_left]
    rfl
  have hhalted := stopped_players_of_one hone w depth
  refine ⟨hcall, ⟨player.halted, hhalted, rfl, rfl, rfl, rfl⟩,
    (oneChain_of_sound hsound hhalted).stopped rfl, ?_, ?_⟩
  · rwa [hdrop]
  · rw [hdrop, List.countP_map]
    exact countP_isReset_partingsOf w depth s' player

section

omit hw [Scalar α]

variable {log : List (Entry α)}

/-- A player that has quit rests. -/
lemma Quits.rests {index n : Nat} (h : Quits kind index n s) : Rests kind s.log s := by
  obtain ⟨player, hone, hkind, hrun, -, htimer⟩ := h.one
  exact ⟨⟨player, hone, hkind, hrun, htimer⟩, h.idle, [], (List.append_nil _).symm,
    silent_nil⟩

lemma Rests.raised (h : Rests kind log s) (fault : Fault) :
    Rests kind log (s.noted (.raised fault)) := by
  obtain ⟨hone, hidle, new, hlog, hsilent⟩ := h
  exact ⟨hone, hidle, new ++ [⟨s.clock, .raised fault⟩], by simp [noted, hlog],
    hsilent.append (silent_singleton rfl)⟩

lemma Rests.at_clock (h : Rests kind log s) (clock : α) :
    Rests kind log { s with clock := clock } :=
  ⟨h.one, h.idle, h.silent⟩

lemma Rests.stopped (h : Rests kind log s) (w : Wiring α) (depth : Nat) :
    Rests kind log (s.stopped w depth 0) := by
  obtain ⟨⟨player, hone, hkind, -, htimer⟩, hidle, new, hlog, hsilent⟩ := h
  -- there is no timer to call off
  have htimers : (s.stopped w depth 0).timers = s.timers := by
    simp [stopPlayer, hone, Player.callOff, htimer]
  refine ⟨⟨player.halted, stopped_players_of_one hone w depth, hkind, rfl, rfl⟩, ?_, _,
    by rw [stopped_log_of_one hone, hlog, List.append_assoc],
    hsilent.append (silent_partingsOf w depth s player s.clock)⟩
  rw [pendingTimers, htimers]
  exact hidle

end

/-- Whatever is done but a start, a player that rests goes on resting. -/
lemma Rests.after {log : List (Entry α)} (h : Rests kind log s) (hplaying : operation.IsPlaying)
    (hstart : operation ≠ .act .start) (limits : Limits) :
    Rests kind log (s.after w operation limits) := by
  cases operation with
  | advance time =>
    rw [after_advance, runDue_of_none (nextDue?_of_pendingTimers_eq_nil h.idle _)]
    exact h.at_clock _
  | fire t => exact hplaying.elim
  | act action =>
    cases action with
    | start => exact absurd rfl hstart
    | stop =>
      obtain ⟨player, hone, -⟩ := h.one
      have hperform : perform w (limits.depth + 1) (some 0) .stop s =
          Playback.ending (resetFault? w limits.depth player) (s.stopped w limits.depth 0) :=
        Player.stop_eq_ending hw limits.depth (getElem?_zero hone)
      rw [after_eq_stageOf]
      simp only [operate, noting, Playback.tryCatch_apply, hperform]
      cases resetFault? w limits.depth player with
      | none => exact h.stopped w limits.depth
      | some fault => exact (h.stopped w limits.depth).raised fault
    | fail => exact hplaying.elim
    | startLight => exact hplaying.elim
    | stopLight => exact hplaying.elim
    | stopAll => exact hplaying.elim

/-- A player that rests goes on resting until it is started. -/
lemma Rests.run {log : List (Entry α)} (h : Rests kind log s) (limits : Limits)
    {operations : List (Operation α)} (hplaying : ∀ operation ∈ operations, operation.IsPlaying)
    (hstart : .act .start ∉ operations) : Rests kind log (s.run w limits operations) := by
  induction operations generalizing s with
  | nil => exact h
  | cons operation operations ih =>
    rw [List.mem_cons, not_or] at hstart
    exact ih (h.after hw (hplaying operation (by simp)) (Ne.symm hstart.1) limits)
      (fun other hother => hplaying other (by simp [hother])) hstart.2

end

end Stage

end Seamark
