import Seamark.Proofs.Playback.Chain
import Seamark.Proofs.Timeline.Sampling

/-!
# The loop of a player and the sampling of its timeline

A player whose listener only listens shows, at every time, the segment that sampling its timeline
gives for the time since it was started, however the passing of time is cut into pieces. Segment
number `m` of the endless loop is announced when it starts, and the one pending timer is due when
the next one starts (`Playing`); a timer that runs leads from one number to the next.
-/

namespace Seamark

variable {α : Type} [Scalar α]

namespace Stage

/-! ### A single pending timer -/

/-- No pending timer is overdue. -/
def CaughtUp (s : Stage α) : Prop :=
  nextDue? s.clock s.timers = none

/-- If only the last timer is pending, it is the one to run once it is due. -/
lemma nextDue?_append {done : List (Timer α)} {live : Timer α}
    (hdone : ∀ timer ∈ done, timer.state ≠ .pending) (hlive : live.state = .pending) (target : α) :
    nextDue? target (done ++ [live]) =
      if live.due ≤ target then some (live, done.length) else none := by
  have hnone : (done.zipIdx.filter fun entry =>
      entry.1.state = .pending && entry.1.due ≤ target) = [] := by
    rw [List.filter_eq_nil_iff]
    intro entry hentry
    have hmem := List.fst_mem_of_mem_zipIdx hentry
    simp [hdone _ hmem]
  -- of the timers in order, only the last one can be left by the filter
  unfold nextDue?
  rw [List.zipIdx_append, List.filter_append, hnone, List.nil_append]
  by_cases hdue : live.due ≤ target <;> simp [hlive, hdue]

/-- A timer that moves on a player whose listener does nothing. -/
lemma firedOne_of_silent {s : Stage α} {w : Wiring α} (timer : Timer α) {player : Player α}
    {segment : Segment α} (hp : s.players[timer.player]? = some player)
    (hrun : player.running = true) (hgen : player.generation = timer.generation)
    (hseg : player.timeline[player.nextIndex]? = some segment)
    (hsilent : replies w player player.nextIndex segment = []) (depth t : Nat) :
    s.firedOne w depth t timer =
      ((s.withFired t timer).nextTurn timer.player player segment).armedFor
        ⟨timer.player, timer.generation, segment⟩ player.moved := by
  have hadvance := Player.advance_eq (s := s.withFired t timer) w depth hp hrun hseg
  have hmoved :
      ((s.withFired t timer).nextTurn timer.player player segment).players[timer.player]? =
        some player.moved := getElem?_set_player (s := s.withFired t timer) hp player.moved
  rw [hgen, hsilent, react_nil] at hadvance
  simp only [firedOne, noting, Playback.tryCatch_apply, hadvance, endTurn, Playback.stageOf_ok]
  exact Player.closeTurn_of_current hmoved hrun hgen

/-! ### The loop -/

/-- The announcements of segments in a log. -/
def announcements (log : List (Entry α)) : List (Entry α) :=
  log.filter fun entry => entry.event.isStep

omit [Scalar α] in
@[simp] lemma announcements_append (log log' : List (Entry α)) :
    announcements (log ++ log') = announcements log ++ announcements log' :=
  List.filter_append log log'

lemma announcements_armedFor (s : Stage α) (turn : Turn α) (player : Player α) :
    announcements (s.armedFor turn player).log = announcements s.log := by
  simp only [armedFor, announcements_append]
  exact List.append_nil _

lemma announcements_nextTurn (s : Stage α) (p : Nat) (player : Player α) (segment : Segment α) :
    announcements (s.nextTurn p player segment).log =
      announcements s.log ++ [⟨s.clock, announcement player player.nextIndex segment⟩] := by
  simp only [nextTurn, announcements_append]
  rfl

lemma announcements_beginTurn (s : Stage α) (p : Nat) (player : Player α) (segment : Segment α) :
    announcements (s.beginTurn p player segment).log =
      announcements s.log ++ [⟨s.clock, announcement player 0 segment⟩] := by
  simp only [beginTurn, announcements_append]
  rfl

end Stage

open Stage Timeline

/-- The greater of two rational numbers that are in order is the second one. -/
lemma greater_of_le {x y : Rat} (h : x ≤ y) : greater x y = y := by
  have hgreater : greater x y = if x < y then y else x := rfl
  rw [hgreater]
  split
  · rfl
  · linarith

/-- The announcements are those of the segments number `0` to `m` of the endless loop, each made
when the segment started. -/
structure Announced (ts : Timeline Rat) (tag : String) (start : Rat) (m : Nat)
    (entries : List (Entry Rat)) : Prop where
  /-- There is one announcement for each number. -/
  length : entries.length = m + 1
  /-- The announcement of a number is about the segment that it stands for. -/
  entry : ∀ i ≤ m, ∃ segment, ts[i % ts.length]? = some segment ∧
    entries[i]? = some ⟨start + ts.startOf i,
      .stepped tag (i % ts.length) segment.color segment.level⟩

/-- The timer that moves the player on when segment number `m + 1` starts. -/
def liveTimer (ts : Timeline Rat) (start : Rat) (m generation : Nat) : Timer Rat where
  due := start + ts.startOf (m + 1)
  interval := ts.durationAt m
  player := 0
  generation := generation

/-- The timer armed at the start of segment number `m`. -/
lemma armed_eq_liveTimer {ts : Timeline Rat} {m : Nat} {segment : Segment Rat}
    (hseg : ts[m % ts.length]? = some segment) (start : Rat) (generation : Nat) :
    ({ due := start + ts.startOf m + segment.duration, interval := segment.duration, player := 0,
       generation := generation } : Timer Rat) = liveTimer ts start m generation := by
  rw [liveTimer, startOf, durationAt_of_getElem? hseg, add_assoc]

/-- A player shows segment number `m` of the endless loop, which it started at a time. -/
structure Playing (ts : Timeline Rat) (tag : String) (start : Rat) (m : Nat) (s : Stage Rat)
    (player : Player Rat) (done : List (Timer Rat)) : Prop where
  /-- There is one player. -/
  one : s.players = [player]
  /-- It runs. -/
  running : player.running = true
  /-- It plays the timeline. -/
  timeline : player.timeline = ts
  /-- Its listener is that of the tag. -/
  listener : player.tag = tag
  /-- Its index is that of the number in the timeline. -/
  index : player.index = m % ts.length
  /-- The last timer waits for the start of the next segment. -/
  timers : s.timers = done ++ [liveTimer ts start m player.generation]
  /-- No other timer is pending. -/
  done : ∀ timer ∈ done, timer.state ≠ .pending
  /-- The segment has started. -/
  started : start + ts.startOf m ≤ s.clock
  /-- The next segment has not started before. -/
  waiting : s.clock ≤ start + ts.startOf (m + 1)
  /-- The segments were announced. -/
  announced : Announced ts tag start m (announcements s.log)

/-- The first announcement. -/
lemma Announced.first {ts : Timeline Rat} {tag : String} {segment : Segment Rat}
    (hseg : ts[0]? = some segment) (start : Rat) :
    Announced ts tag start 0 [⟨start, .stepped tag 0 segment.color segment.level⟩] where
  length := rfl
  entry i hi := by
    obtain rfl := Nat.le_zero.mp hi
    exact ⟨segment, by rwa [Nat.zero_mod], by simp [startOf]⟩

/-- One more announcement. -/
lemma Announced.append {ts : Timeline Rat} {tag : String} {start : Rat} {m : Nat}
    {entries : List (Entry Rat)} {segment : Segment Rat} (h : Announced ts tag start m entries)
    (hseg : ts[(m + 1) % ts.length]? = some segment) :
    Announced ts tag start (m + 1) (entries ++ [⟨start + ts.startOf (m + 1),
      .stepped tag ((m + 1) % ts.length) segment.color segment.level⟩]) where
  length := by simp [h.length]
  entry i hi := by
    rcases Nat.lt_or_eq_of_le hi with hlt | rfl
    · obtain ⟨shown, hshown, hentry⟩ := h.entry i (by omega)
      refine ⟨shown, hshown, ?_⟩
      rw [List.getElem?_append_left (by rw [h.length]; omega), hentry]
    · refine ⟨segment, hseg, ?_⟩
      rw [List.getElem?_append_right h.length.le, h.length, Nat.sub_self, List.getElem?_cons_zero]

namespace Playing

variable {ts : Timeline Rat} {tag : String} {start : Rat} {m : Nat} {s : Stage Rat}
  {player : Player Rat} {done : List (Timer Rat)} {w : Wiring Rat}

/-- What runs next while a player plays. -/
lemma nextDue?_eq (h : Playing ts tag start m s player done) (target : Rat) :
    nextDue? target s.timers =
      if start + ts.startOf (m + 1) ≤ target then
        some (liveTimer ts start m player.generation, done.length)
      else none := by
  rw [h.timers]
  exact nextDue?_append h.done rfl target

/-- If nothing is due, the next segment has not started yet. -/
lemma lt_of_nextDue?_eq_none (h : Playing ts tag start m s player done) {target : Rat}
    (hnone : nextDue? target s.timers = none) : target < start + ts.startOf (m + 1) := by
  by_contra hdue
  have hnext := h.nextDue?_eq target
  rw [if_pos (not_lt.mp hdue), hnone] at hnext
  simp at hnext

variable (hpos : ∀ segment ∈ ts, 0 < segment.duration)
  (hsilent : ∀ call index segment, (w.scriptOf tag).onStep call index segment = [])
include hpos hsilent

/-- When the timer runs that is due, the player goes on with the next number. -/
lemma fire (h : Playing ts tag start m s player done) (hne : ts ≠ []) (depth : Nat) :
    let s' := firedOne w depth done.length (liveTimer ts start m player.generation)
      { s with clock := greater s.clock (liveTimer ts start m player.generation).due }
    s'.clock = start + ts.startOf (m + 1) ∧
      ∃ player' done', Playing ts tag start (m + 1) s' player' done' := by
  obtain ⟨segment, hseg⟩ : ∃ segment, ts[(m + 1) % ts.length]? = some segment :=
    ⟨_, List.getElem?_eq_getElem (Nat.mod_lt _ (List.length_pos_of_ne_nil hne))⟩
  have hnext : player.nextIndex = (m + 1) % ts.length := by
    rw [Player.nextIndex, h.timeline, h.index, Nat.mod_add_mod]
  have hclock : greater s.clock (liveTimer ts start m player.generation).due =
      start + ts.startOf (m + 1) := greater_of_le h.waiting
  dsimp only
  rw [hclock, firedOne_of_silent (s := { s with clock := start + ts.startOf (m + 1) }) (w := w)
    (liveTimer ts start m player.generation) (by simp [h.one, liveTimer]) h.running rfl
    (by rw [h.timeline, hnext, hseg]) (by rw [replies, h.listener, hsilent]) depth done.length]
  refine ⟨rfl, { player.moved with timer := some s.timers.length },
    done ++ [{ liveTimer ts start m player.generation with state := .fired }], ?_⟩
  constructor
  case one => simp [armedFor, nextTurn, withFired, h.one, liveTimer]
  case running => exact h.running
  case timeline => exact h.timeline
  case listener => exact h.listener
  case index => exact hnext
  case timers =>
    -- the timer that ran is done, and the new one is armed for the length of the new segment
    have hfired : s.timers.set done.length
        { liveTimer ts start m player.generation with state := .fired } =
        done ++ [{ liveTimer ts start m player.generation with state := .fired }] := by
      rw [h.timers]
      simp
    exact congrArg₂ (fun first new => first ++ [new]) hfired
      (armed_eq_liveTimer hseg start player.generation)
  case done =>
    intro timer htimer
    rcases List.mem_append.mp htimer with hold | hnew
    · exact h.done timer hold
    · rw [List.mem_singleton.mp hnew]
      simp
  case started => exact le_rfl
  case waiting =>
    have := durationAt_pos hpos hne (m + 1)
    simp only [armedFor, nextTurn, withFired, startOf]
    linarith
  case announced =>
    have hevent : announcement player player.nextIndex segment =
        .stepped tag ((m + 1) % ts.length) segment.color segment.level := by
      rw [announcement, h.listener, hnext]
    rw [announcements_armedFor, announcements_nextTurn, hevent]
    exact h.announced.append hseg

/-- When timers run that are due, the player goes on until the next segment has not started yet,
or as many timers ran as may run. -/
lemma runDue (hne : ts ≠ []) (depth firings : Nat) {target : Rat}
    (h : ∃ m player done, Playing ts tag start m s player done) (hclock : s.clock ≤ target) :
    ∃ s', Stage.runDue w depth target firings s = .ok ⟨⟩ s' ∧ s'.clock ≤ target ∧
      ∃ m player done, Playing ts tag start m s' player done := by
  induction firings generalizing s with
  | zero => exact ⟨s, rfl, hclock, h⟩
  | succ firings ih =>
    obtain ⟨m, player, done, h⟩ := h
    have hnext := h.nextDue?_eq target
    split at hnext
    -- either the next segment starts in time, or nothing is due and the run is over
    case isTrue hdue =>
      obtain ⟨hfired, player', done', h'⟩ := h.fire hpos hsilent hne depth
      rw [runDue_of_some hnext]
      exact ih ⟨m + 1, player', done', h'⟩ (hfired.trans_le hdue)
    case isFalse =>
      rw [runDue_of_none hnext]
      exact ⟨s, rfl, hclock, m, player, done, h⟩

/-- After some time the player shows the segment that started last, if no timer is overdue. -/
lemma advance (hne : ts ≠ []) (limits : Limits) {time : Rat} (htime : 0 ≤ time)
    (h : ∃ m player done, Playing ts tag start m s player done)
    (hcaught : CaughtUp (s.after w (.advance time) limits)) :
    (s.after w (.advance time) limits).clock = s.clock + time ∧
      (∃ m player done, Playing ts tag start m (s.after w (.advance time) limits) player done) := by
  have hlater : s.clock ≤ s.clock + time := by linarith
  obtain ⟨s', hruns, hclock, m, player, done, h'⟩ :=
    runDue hpos hsilent hne limits.depth limits.firings h hlater
  have hafter : s.after w (.advance time) limits = { s' with clock := s.clock + time } := by
    rw [after_advance]
    exact congrArg (fun result => { Playback.stageOf result with clock := s.clock + time }) hruns
  rw [hafter] at hcaught ⊢
  -- nothing is overdue, so the clock may go on to its target within the segment
  have hwaiting : s.clock + time < start + ts.startOf (m + 1) :=
    h'.lt_of_nextDue?_eq_none hcaught
  exact ⟨rfl, m, player, done, { h' with
    started := h'.started.trans hclock
    waiting := hwaiting.le }⟩

/-- After some times the player shows the segment that started last, if no timer was overdue after
any of them. -/
lemma run (hne : ts ≠ []) (limits : Limits) {times : List Rat} (htimes : ∀ time ∈ times, 0 ≤ time)
    (h : ∃ m player done, Playing ts tag start m s player done)
    (hcaught : ∀ first, first <+: times → CaughtUp (s.run w limits (first.map .advance))) :
    (s.run w limits (times.map .advance)).clock = s.clock + times.sum ∧
      ∃ m player done,
        Playing ts tag start m (s.run w limits (times.map .advance)) player done := by
  induction times generalizing s with
  | nil => exact ⟨by simp, h⟩
  | cons time times ih =>
    have hone : CaughtUp (s.after w (.advance time) limits) :=
      hcaught [time] (List.prefix_append [time] times)
    obtain ⟨hclock, hplaying⟩ := advance hpos hsilent hne limits (htimes time (by simp)) h hone
    have hrest := ih (fun other hother => htimes other (by simp [hother])) hplaying
      fun first hfirst => hcaught (time :: first) (List.cons_prefix_cons.mpr ⟨rfl, hfirst⟩)
    refine ⟨?_, hrest.2⟩
    rw [List.map_cons, run_cons, hrest.1, hclock, List.sum_cons]
    ring

end Playing

/-! ### The start -/

/-- The only player was not started, and nothing was armed or announced. -/
structure AtRest (ts : Timeline α) (tag : String) (clock : α) (s : Stage α) (player : Player α) :
    Prop where
  /-- There is one player. -/
  one : s.players = [player]
  /-- It does not run. -/
  stopped : player.running = false
  /-- It remembers no timer. -/
  timer : player.timer = none
  /-- It plays the timeline. -/
  timeline : player.timeline = ts
  /-- Its listener is that of the tag. -/
  listener : player.tag = tag
  /-- No timer was armed. -/
  timers : s.timers = []
  /-- No time passed. -/
  clock : s.clock = clock
  /-- Nothing was announced. -/
  announced : announcements s.log = []

namespace AtRest

variable {ts : Timeline α} {tag : String} {clock : α} {w : Wiring α} {s s' : Stage α}
  {player : Player α}

omit [Scalar α] in
/-- Stopping a player at rest leaves it at rest, whatever its listener does at the reset that
leaves it at rest. -/
lemma stop {react : React α}
    (hreact : ∀ call s s' player, AtRest ts tag clock s player →
      react (some 0) ((w.scriptOf tag).onReset call) s = .ok ⟨⟩ s' →
      ∃ player', AtRest ts tag clock s' player')
    (h : AtRest ts tag clock s player) (hstop : Player.stop w react 0 s = .ok ⟨⟩ s') :
    ∃ player', AtRest ts tag clock s' player' := by
  have hp : s.players[0]? = some player := by simp [h.one]
  by_cases hears : player.hearsReset = true
  · have hcalls : Player.stop w react 0 s =
        react (some 0) ((w.scriptOf tag).onReset (player.resets + 1))
          { s with
            players := [player.halted]
            log := s.log ++ [⟨s.clock, .reset tag⟩] } := by
      rw [Player.stop, withPlayer_of_some hp]
      simp [setPlayer, h.timer, h.stopped, Player.announceReset, withPlayer, h.one, hears,
        note_apply, noted, h.listener, Player.halted]
    rw [hcalls] at hstop
    refine hreact _ _ s' player.halted ?_ hstop
    refine ⟨rfl, rfl, rfl, h.timeline, h.listener, h.timers, h.clock, ?_⟩
    rw [announcements_append, h.announced]
    rfl
  · have hquiet : Player.stop w react 0 s = .ok ⟨⟩ { s with players := [player.halted] } := by
      rw [Player.stop, withPlayer_of_some hp]
      simp [setPlayer, h.timer, h.stopped, Player.announceReset, withPlayer, h.one, hears,
        Player.halted]
    rw [hquiet] at hstop
    cases hstop
    exact ⟨_, rfl, rfl, rfl, h.timeline, h.listener, h.timers, h.clock, h.announced⟩

/-- A listener that only stops the player or fails leaves it at rest. -/
lemma react (hresets : ∀ call, ∀ action ∈ (w.scriptOf tag).onReset call,
      action = .stop ∨ ∃ fault, action = .fail fault) (depth : Nat) {actions : List Action}
    (hactions : ∀ action ∈ actions, action = .stop ∨ ∃ fault, action = .fail fault)
    (h : AtRest ts tag clock s player)
    (hruns : Stage.react w depth (some 0) actions s = .ok ⟨⟩ s') :
    ∃ player', AtRest ts tag clock s' player' := by
  induction depth generalizing actions s s' player with
  | zero =>
    cases actions with
    | nil =>
      rw [react_nil] at hruns
      cases hruns
      exact ⟨player, h⟩
    | cons action actions =>
      obtain ⟨_, _, hfirst, -⟩ := Playback.exists_of_bind_eq_ok hruns
      cases hfirst
  | succ depth ih =>
    induction actions generalizing s player with
    | nil =>
      rw [react_nil] at hruns
      cases hruns
      exact ⟨player, h⟩
    | cons action actions ihactions =>
      obtain ⟨_, s₁, hfirst, hrest⟩ := Playback.exists_of_bind_eq_ok hruns
      have hthis := hactions action (by simp)
      have hothers : ∀ other ∈ actions, other = .stop ∨ ∃ fault, other = .fail fault :=
        fun other hother => hactions other (by simp [hother])
      rcases hthis with rfl | ⟨fault, rfl⟩
      · have hstop : Player.stop w (Stage.react w depth) 0 s = .ok ⟨⟩ s₁ := hfirst
        obtain ⟨player₁, h₁⟩ := h.stop
          (fun call s s' player hrest hreset => ih (hresets call) hrest hreset) hstop
        exact ihactions hothers h₁ hrest
      · cases hfirst

end AtRest

section

variable {ts : Timeline Rat} {tag : String} {clock : Rat} {w : Wiring Rat} {s : Stage Rat}
  {player : Player Rat} (hpos : ∀ segment ∈ ts, 0 < segment.duration) (hne : ts ≠ [])
  (hsilent : ∀ call index segment, (w.scriptOf tag).onStep call index segment = [])
  (hresets : ∀ call, ∀ action ∈ (w.scriptOf tag).onReset call,
    action = .stop ∨ ∃ fault, action = .fail fault)
include hpos hne hsilent

omit hsilent in
/-- A player at rest that was stopped once more starts with the first segment. -/
lemma AtRest.playing (h : AtRest ts tag clock s player) {segment : Segment Rat}
    (hseg : ts[0]? = some segment) :
    Playing ts tag clock 0
      ((s.beginTurn 0 player segment).armedFor ⟨0, player.generation + 1, segment⟩ player.begun)
      { player.begun with timer := some s.timers.length } [] := by
  have hfirst : ts[0 % ts.length]? = some segment := by rwa [Nat.zero_mod]
  constructor
  case one => simp [armedFor, beginTurn, h.one]
  case running => rfl
  case timeline => exact h.timeline
  case listener => exact h.listener
  case index => exact (Nat.zero_mod _).symm
  case timers =>
    have harmed := armed_eq_liveTimer hfirst clock (player.generation + 1)
    rw [startOf, add_zero] at harmed
    simp only [armedFor, beginTurn, h.timers, h.clock, harmed]
    rfl
  case done => simp
  case started => simp [armedFor, beginTurn, startOf, h.clock]
  case waiting =>
    have := durationAt_pos hpos hne 0
    simp only [armedFor, beginTurn, startOf, h.clock]
    linarith
  case announced =>
    have hevent : announcement player 0 segment = .stepped tag 0 segment.color segment.level := by
      rw [announcement, h.listener]
    rw [announcements_armedFor, announcements_beginTurn, h.announced, h.clock, hevent]
    exact .first hseg clock

include hresets

/-- A player at rest that is started without a fault shows its first segment. -/
lemma AtRest.start (h : AtRest ts tag clock s player) (limits : Limits)
    (hfine : ∀ entry ∈ (s.after w (.act .start) limits).log, ∀ fault,
      entry.event ≠ .raised fault) :
    (s.after w (.act .start) limits).clock = clock ∧
      ∃ player, Playing ts tag clock 0 (s.after w (.act .start) limits) player [] := by
  have hafter : s.after w (.act .start) limits =
      Playback.stageOf (noting (Player.start w (Stage.react w limits.depth) 0) s) :=
    after_eq_stageOf _ _ _ _
  -- a start begins with a stop, whose listener may still fail
  cases hstop : Player.stop w (Stage.react w limits.depth) 0 s with
  | error fault s' =>
    have hnoted : s.after w (.act .start) limits = s'.noted (.raised fault) := by
      rw [hafter, noting, Playback.tryCatch_apply, Player.start, Playback.bind_apply, hstop]
      rfl
    rw [hnoted] at hfine
    exact absurd rfl (hfine ⟨s'.clock, .raised fault⟩ (by simp [noted]) fault)
  | ok _ s' =>
    obtain ⟨player', h'⟩ := h.stop (fun call s s' player hrest hreset =>
      hrest.react hresets limits.depth (hresets call) hreset) hstop
    obtain ⟨segment, hseg⟩ : ∃ segment, ts[0]? = some segment :=
      ⟨_, List.getElem?_eq_getElem (List.length_pos_of_ne_nil hne)⟩
    have hp : s'.players[0]? = some player' := by simp [h'.one]
    have hstarted := Player.start_of_stopped hstop hp (h'.timeline.symm ▸ hseg)
    have hreplies : replies w player' 0 segment = [] := by rw [replies, h'.listener, hsilent]
    have hturn : (s'.beginTurn 0 player' segment).closeTurn ⟨0, player'.generation + 1, segment⟩ =
        (s'.beginTurn 0 player' segment).armedFor ⟨0, player'.generation + 1, segment⟩
          player'.begun :=
      Player.closeTurn_of_current (by simp [beginTurn, h'.one]) rfl rfl
    rw [hreplies, react_nil, endTurn, hturn] at hstarted
    rw [hafter, noting, Playback.tryCatch_apply, hstarted]
    exact ⟨h'.clock, _, h'.playing hpos hne hseg⟩

end

namespace Stage

/-- **The timers of a player and the sampling of its timeline agree.** Its listener does nothing
when a segment is announced, and at a reset it at most stops the player or fails. The player is
started once, without a fault, and then times pass, after none of which a timer is overdue. Then
the player shows the segment that sampling its timeline gives for the time since the start; and of
the endless loop, exactly the segments up to the last one that has started were announced, in
order, each once and when it started. -/
theorem solo_run_sampled (w : Wiring Rat) (limits : Limits) (clock : Rat) (name : String)
    (ts : Timeline Rat) (tag : String) (hearsReset : Bool) (times : List Rat) (hne : ts ≠ [])
    (hpos : ∀ segment ∈ ts, 0 < segment.duration)
    (hsilent : ∀ call index segment, (w.scriptOf tag).onStep call index segment = [])
    (hresets : ∀ call, ∀ action ∈ (w.scriptOf tag).onReset call,
      action = .stop ∨ ∃ fault, action = .fail fault)
    (hfine : ∀ entry ∈ ((solo clock name ts tag hearsReset).after w (.act .start) limits).log,
      ∀ fault, entry.event ≠ .raised fault)
    (htimes : ∀ time ∈ times, 0 ≤ time)
    (hcaught : ∀ first, first <+: times →
      CaughtUp ((solo clock name ts tag hearsReset).run w limits
        (.act .start :: first.map .advance))) :
    let s := (solo clock name ts tag hearsReset).run w limits (.act .start :: times.map .advance)
    ∃ m player segment, s.players = [player] ∧ s.clock = clock + times.sum ∧
      ts.activeAt? times.sum = some (player.index, segment) ∧
      (∀ i, ts.startOf i ≤ times.sum ↔ i ≤ m) ∧
      Announced ts tag clock m (announcements s.log) := by
  intro s
  have hrest : AtRest ts tag clock (solo clock name ts tag hearsReset)
      { name := name, timeline := ts, tag := tag, hearsReset := hearsReset } :=
    ⟨rfl, rfl, rfl, rfl, rfl, rfl, rfl, rfl⟩
  obtain ⟨hstarted, first, hfirst⟩ := hrest.start hpos hne hsilent hresets limits hfine
  obtain ⟨hclock, m, player, done, hplaying⟩ :=
    Playing.run hpos hsilent hne limits htimes ⟨0, first, [], hfirst⟩ hcaught
  rw [hstarted] at hclock
  have hclock : s.clock = clock + times.sum := hclock
  have hlo : ts.startOf m ≤ times.sum := by
    have : clock + ts.startOf m ≤ s.clock := hplaying.started
    linarith
  have hhi : times.sum < ts.startOf (m + 1) := by
    have : s.clock < clock + ts.startOf (m + 1) :=
      hplaying.lt_of_nextDue?_eq_none (hcaught times (List.prefix_refl times))
    linarith
  -- so the number shown is that of the last segment that has started
  obtain ⟨segment, -, hactive⟩ := activeAt?_of_started hpos hne hlo hhi
  refine ⟨m, player, segment, hplaying.one, hclock, hplaying.index ▸ hactive, fun i => ?_,
    hplaying.announced⟩
  have hmono := startOf_strictMono hpos hne
  constructor
  · intro hi
    exact Nat.lt_succ_iff.mp (hmono.lt_iff_lt.mp (hi.trans_lt hhi))
  · intro hi
    exact (hmono.monotone hi).trans hlo

/-- A listener that does nothing when a segment is announced and stops its player at its first
reset. -/
def patient : Wiring Rat where
  scriptOf _ := { onReset := fun call => if call = 1 then [.stop] else [] }
  timelineOf _ := .ok []

/-- A flash of one second and a pause of half a second. -/
def glint : Timeline Rat := [⟨true, 1, "R", 1⟩, ⟨false, 1 / 2, "R", 0⟩]

/-- Exactly at the end of the second cycle, reached in two pieces, the player shows the flash again,
and the five segments that have started were announced. -/
theorem patient_run_sampled :
    ∃ player segment, ((solo 0 "buoy" glint "x" true).run patient {}
        [.act .start, .advance (1 / 2), .advance (5 / 2)]).players = [player] ∧
      glint.activeAt? 3 = some (player.index, segment) ∧
      Announced glint "x" 0 4 (announcements ((solo 0 "buoy" glint "x" true).run patient {}
        [.act .start, .advance (1 / 2), .advance (5 / 2)]).log) := by
  have hresets : ∀ call, ∀ action ∈ (patient.scriptOf "x").onReset call,
      action = .stop ∨ ∃ fault, action = .fail fault := by
    intro call action haction
    simp only [patient] at haction
    split at haction
    · exact .inl (List.mem_singleton.mp haction)
    · simp at haction
  have hfine : ∀ entry ∈ ((solo 0 "buoy" glint "x" true).after patient (.act .start) {}).log,
      ∀ fault, entry.event ≠ .raised fault := by
    have hlog : ((solo 0 "buoy" glint "x" true).after patient (.act .start) {}).log.map (·.event) =
        [.reset "x", .reset "x", .playing "buoy" 2 (3 / 2), .stepped "x" 0 "R" 1, .armed 0 1] := by
      decide +kernel
    intro entry hentry fault hraised
    have hmem := List.mem_map_of_mem (f := (·.event)) hentry
    rw [hlog, hraised] at hmem
    simp at hmem
  have hcaught : ∀ first, first <+: [1 / 2, 5 / 2] →
      CaughtUp ((solo 0 "buoy" glint "x" true).run patient {}
        (.act .start :: first.map .advance)) := by
    intro first hfirst
    simp only [List.prefix_cons_iff, List.prefix_nil] at hfirst
    rcases hfirst with rfl | ⟨_, rfl, rfl | ⟨_, rfl, rfl⟩⟩ <;> unfold CaughtUp <;> decide +kernel
  obtain ⟨m, player, segment, hone, -, hactive, hstarted, hannounced⟩ :=
    solo_run_sampled patient {} 0 "buoy" glint "x" true [1 / 2, 5 / 2] (by simp [glint])
      (by simp [glint]) (fun _ _ _ => rfl) hresets hfine (by norm_num) hcaught
  have htime : ([1 / 2, 5 / 2] : List Rat).sum = 3 := by norm_num
  rw [htime] at hactive hstarted
  have hm : m = 4 := by
    have hlast : 4 ≤ m := (hstarted 4).mp (by decide +kernel)
    have hnext : ¬ 5 ≤ m := fun h => absurd ((hstarted 5).mpr h) (by decide +kernel)
    omega
  subst hm
  exact ⟨player, segment, hone, hactive, hannounced⟩

end Stage

end Seamark
