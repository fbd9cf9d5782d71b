import Seamark.Proofs.Playback.Loop
import Seamark.Proofs.Playback.Halting

/-!
# Runs without a fault

While time passes for one player whose listener can only fail, and no fault is noted, the listener
was never told of a segment at which it fails (`Accepted`), and so the player went on as if its
listener did nothing (`Wiring.muted`).  Then nothing is noted but the turns of the player: a segment
is announced and a timer is armed (`Turning`).
-/

namespace Seamark

variable {α : Type}

/-- No fault was noted. -/
def Faultless (log : List (Entry α)) : Prop :=
  ∀ entry ∈ log, ∀ fault, entry.event ≠ .raised fault

lemma Faultless.of_isPrefix {log log' : List (Entry α)} (h : Faultless log')
    (hgrows : log <+: log') : Faultless log :=
  fun entry hentry => h entry (hgrows.subset hentry)

/-- The same notations with listeners that do nothing. -/
def Wiring.muted (w : Wiring α) : Wiring α where
  scriptOf _ := {}
  timelineOf := w.timelineOf

lemma Wiring.muted_onlyFails (w : Wiring α) : w.muted.OnlyFails where
  steps _ _ _ _ _ haction := absurd haction List.not_mem_nil
  resets _ _ _ haction := absurd haction List.not_mem_nil

/-- Whenever a segment of a timeline was announced, the listener did nothing. -/
def Accepted (w : Wiring α) (timeline : Timeline α) (log : List (Entry α)) : Prop :=
  ∀ entry ∈ log, ∀ tag index color level, entry.event = .stepped tag index color level →
    ∃ call segment, timeline[index]? = some segment ∧
      (w.scriptOf tag).onStep call index segment = []

lemma Accepted.append {w : Wiring α} {timeline : Timeline α} {log log' : List (Entry α)}
    (h : Accepted w timeline log) (h' : Accepted w timeline log') :
    Accepted w timeline (log ++ log') := by
  intro entry hentry
  rcases List.mem_append.mp hentry with hold | hnew
  · exact h entry hold
  · exact h' entry hnew

/-- What tells of no segment is accepted. -/
lemma Silent.accepted {log : List (Entry α)} (h : Silent log) (w : Wiring α)
    (timeline : Timeline α) : Accepted w timeline log := by
  intro entry hentry tag index color level hevent
  have hsilent := h entry hentry
  simp [hevent, Event.isStep] at hsilent

/-- Every entry tells of a segment, or of a timer that was armed. -/
def Turning (log : List (Entry α)) : Prop :=
  ∀ entry ∈ log, entry.event.isStep = true ∨ ∃ timer interval, entry.event = .armed timer interval

lemma Turning.append {log log' : List (Entry α)} (h : Turning log) (h' : Turning log') :
    Turning (log ++ log') :=
  List.forall_mem_append.mpr ⟨h, h'⟩

namespace Stage

variable [Scalar α] {w : Wiring α} {s : Stage α} {player kind : Player α} {segment : Segment α}
  {depth index : Nat} {turn : Turn α}

/-- A turn is left by a fault if the listener has something to do. -/
lemma exists_endTurn_eq_error (hw : w.OnlyFails)
    (hreplies : replies w player index segment ≠ []) (caller : Option Nat) :
    ∃ fault s', endTurn w depth turn (react w depth caller (replies w player index segment) s) =
      .error fault s' := by
  rw [react_replies hw, stepFault?]
  cases hactions : replies w player index segment with
  | nil => exact absurd hactions hreplies
  | cons action actions =>
    have hmem : action ∈ replies w player index segment := by simp [hactions]
    obtain ⟨fault, rfl⟩ := hw.steps player.tag _ index segment action hmem
    simp only [faultOf?, Playback.ending, endTurn]
    cases Player.stop w (react w depth) turn.player s with
    | ok _ s' => exact ⟨_, s', rfl⟩
    | error fault' s' => exact ⟨fault', s', rfl⟩

/-- An announcement at which the listener has nothing to do. -/
lemma accepted_announcement (hseg : player.timeline[index]? = some segment)
    (hsilent : replies w player index segment = []) (time : α) :
    Accepted w player.timeline [⟨time, announcement player index segment⟩] := by
  intro entry hentry tag other color level hevent
  rw [List.mem_singleton.mp hentry, announcement, Event.stepped.injEq] at hevent
  obtain ⟨rfl, rfl, -, -⟩ := hevent
  exact ⟨player.steps + 1, segment, hseg, hsilent⟩

/-- A listener that only fails does nothing if it does not fail. -/
lemma eq_nil_of_faultOf?_eq_none {actions : List Action}
    (hfails : ∀ action ∈ actions, ∃ fault, action = .fail fault)
    (hnone : faultOf? depth actions = none) : actions = [] := by
  cases actions with
  | nil => rfl
  | cons action actions =>
    obtain ⟨fault, rfl⟩ := hfails action (by simp)
    simp [faultOf?] at hnone

/-! ### What is noted if the listener does nothing -/

/-- A turn of a player in which a timer is armed. -/
lemma turning_turn (player : Player α) (index : Nat) (segment : Segment α) (timer : Nat)
    (interval time : α) :
    Turning [⟨time, announcement player index segment⟩, ⟨time, .armed timer interval⟩] := by
  simp [Turning, announcement, Event.isStep]

/-- The log of a start at which the listener does nothing. -/
lemma log_start (hone : s.players = [player]) :
    (((s.stopped w depth 0).beginTurn 0 player.halted segment).armedFor turn
      player.halted.begun).log = s.log ++ (s.partingsOf w depth player).map (⟨s.clock, ·⟩) ++
        [⟨s.clock, .playing player.name player.timeline.length player.timeline.total⟩] ++
        [⟨s.clock, announcement player.halted 0 segment⟩,
          ⟨s.clock, .armed (s.stopped w depth 0).timers.length turn.segment.duration⟩] := by
  simp [armedFor, beginTurn, stopped_log_of_one hone, Player.halted]

/-- A timer that runs notes at most a turn. -/
lemma exists_log_firedOne (hsound : Sound ⟨[], s⟩) (w : Wiring α) (depth t : Nat)
    (timer : Timer α) :
    ∃ turns, (s.firedOne w.muted depth t timer).log = s.log ++ turns ∧ Turning turns := by
  rcases advance_withFired hsound w.muted depth t timer with
    ⟨-, hadvance⟩ | ⟨player, segment, hp, hrun, hgen, hseg, -⟩
  · refine ⟨[], ?_, by simp [Turning]⟩
    simp only [firedOne, noting, Playback.tryCatch_apply, hadvance]
    exact (List.append_nil _).symm
  · rw [firedOne_of_silent timer hp hrun hgen hseg rfl depth t]
    refine ⟨[⟨s.clock, announcement player player.nextIndex segment⟩,
      ⟨s.clock, .armed s.timers.length segment.duration⟩], ?_, turning_turn _ _ _ _ _ _⟩
    simp [armedFor, nextTurn, withFired]

/-- Time that passes notes nothing but turns. -/
lemma exists_log_after_advance (hsound : Sound ⟨[], s⟩) (w : Wiring α) (limits : Limits)
    (time : α) :
    ∃ turns, (s.after w.muted (.advance time) limits).log = s.log ++ turns ∧ Turning turns := by
  rw [after_advance]
  refine stageOf_runDue w.muted_onlyFails
    (fun s' => ∃ turns, s'.log = s.log ++ turns ∧ Turning turns) (fun _ _ h => h) ?_ hsound
    ⟨[], by simp, by simp [Turning]⟩ _ _
  rintro s' t timer hsound' ⟨turns, hlog, hturns⟩ -
  obtain ⟨more, hmore, hmores⟩ := exists_log_firedOne hsound' w limits.depth t timer
  exact ⟨turns ++ more, by rw [hmore, hlog, List.append_assoc], hturns.append hmores⟩

/-! ### One timer -/

variable (hw : w.OnlyFails)
include hw

lemma log_grows_firedOne (hsound : Sound ⟨[], s⟩) (hone : s.players = [player]) {t : Nat}
    {timer : Timer α} (ht : s.timers[t]? = some timer) (depth : Nat) :
    s.log <+: (s.firedOne w depth t timer).log := by
  obtain ⟨after, -, hlog⟩ := log_noting
    (Player.advance w (react w depth) timer.player timer.generation) (s.withFired t timer)
  have hcall : (s.withFired t timer).log <+: _ :=
    (isCall_advance hw hsound hone ht depth).log_grows
  rw [firedOne, hlog]
  exact hcall.trans (List.prefix_append _ _)

/-- A timer that runs without a fault does what it does when the listener does nothing. -/
lemma firedOne_of_faultless (hsound : Sound ⟨[], s⟩) (hone : s.players = [player]) {t : Nat}
    {timer : Timer α} (ht : s.timers[t]? = some timer)
    (hfine : Faultless (s.firedOne w depth t timer).log) :
    s.firedOne w depth t timer = s.firedOne w.muted depth t timer ∧
      (Accepted w player.timeline s.log →
        Accepted w player.timeline (s.firedOne w depth t timer).log) := by
  have hzero := player_eq_zero hsound hone ht
  rcases advance_withFired hsound w depth t timer with
    ⟨hcurrent, hadvance⟩ | ⟨other, segment, hp, hrun, hgen, hseg, hadvance⟩
  · have hmuted := Player.advance_of_not_current (s := s.withFired t timer) (w := w.muted) hcurrent
      depth
    simp only [firedOne, noting, Playback.tryCatch_apply, hadvance, hmuted]
    exact ⟨trivial, id⟩
  obtain rfl : other = player := by simpa [hzero, hone] using hp.symm
  by_cases hsilent : replies w other other.nextIndex segment = []
  · have hfired := firedOne_of_silent timer hp hrun hgen hseg hsilent depth t
    refine ⟨hfired.trans (firedOne_of_silent timer hp hrun hgen hseg rfl depth t).symm, fun h => ?_⟩
    rw [hfired]
    exact (h.append (accepted_announcement hseg hsilent s.clock)).append
      ((silent_singleton rfl).accepted w _)
  · -- the listener fails, and so a fault is noted
    obtain ⟨fault, s', hfault⟩ := exists_endTurn_eq_error hw hsilent (some timer.player)
    have hraised : s.firedOne w depth t timer = s'.noted (.raised fault) := by
      rw [firedOne, noting, Playback.tryCatch_apply, hadvance, hfault]
      rfl
    rw [hraised] at hfine
    exact absurd rfl (hfine ⟨s'.clock, .raised fault⟩ (by simp [noted]) fault)

/-- A start at which the listener does nothing tells of a segment that it accepts. -/
lemma accepted_start (hone : s.players = [player]) (hseg : player.timeline[0]? = some segment)
    (hok : stepFault? w depth player.halted 0 segment = none)
    (h : Accepted w player.timeline s.log) :
    Accepted w player.timeline
      (((s.stopped w depth 0).beginTurn 0 player.halted segment).armedFor turn
        player.halted.begun).log := by
  have hsilent : replies w player.halted 0 segment = [] :=
    eq_nil_of_faultOf?_eq_none (hw.steps player.tag _ 0 segment) hok
  have hbefore := (silent_partingsOf w depth s player s.clock).accepted w player.timeline
  rw [log_start hone, List.append_cons]
  exact (((h.append hbefore).append ((silent_singleton rfl).accepted w _)).append
    (accepted_announcement hseg hsilent s.clock)).append ((silent_singleton rfl).accepted w _)

/-! ### The passing of time -/

lemma log_grows_runDue (hsound : Sound ⟨[], s⟩) (h : s.HoldsOne kind) (depth : Nat) (target : α)
    (firings : Nat) : s.log <+: (Playback.stageOf (runDue w depth target firings s)).log := by
  refine (stageOf_runDue hw (fun s' => s.log <+: s'.log ∧ s'.HoldsOne kind) (fun _ _ h => h) ?_
    hsound ⟨List.prefix_refl _, h⟩ target firings).1
  rintro s' t timer hsound' ⟨hgrows, hholds⟩ ht
  obtain ⟨player, hone, -⟩ := id hholds
  exact ⟨hgrows.trans (log_grows_firedOne hw hsound' hone ht depth),
    holdsOne_firedOne hw hsound' hholds ht depth⟩

/-- Timers that run without a fault do what they do when the listener does nothing. -/
lemma runDue_of_faultless (hsound : Sound ⟨[], s⟩) (h : s.HoldsOne kind) (target : α)
    (firings : Nat)
    (hfine : Faultless (Playback.stageOf (runDue w depth target firings s)).log) :
    runDue w depth target firings s = runDue w.muted depth target firings s ∧
      (Accepted w kind.timeline s.log →
        Accepted w kind.timeline (Playback.stageOf (runDue w depth target firings s)).log) := by
  induction firings generalizing s with
  | zero => exact ⟨rfl, id⟩
  | succ firings ih =>
    cases hnext : nextDue? target s.timers with
    | none =>
      rw [runDue_of_none hnext, runDue_of_none hnext]
      exact ⟨rfl, id⟩
    | some entry =>
      obtain ⟨ht, hpending, -⟩ := nextDue?_eq_some hnext
      have hticked : Sound ⟨[], { s with clock := greater s.clock entry.1.due }⟩ :=
        hsound.congr rfl rfl
      have hsounds := sound_firedOne hw hticked ht (by simp [hpending]) depth
      have hholds := holdsOne_firedOne hw hticked h ht depth
      rw [runDue_of_some hnext] at hfine ⊢
      rw [runDue_of_some hnext]
      -- what the first timer noted is still there in the end
      have hfirst := hfine.of_isPrefix (log_grows_runDue hw hsounds hholds depth target firings)
      obtain ⟨player, hone, rfl⟩ := id h
      obtain ⟨hmuted, haccepted⟩ := firedOne_of_faultless hw hticked hone ht hfirst
      obtain ⟨hrest, hothers⟩ := ih hsounds hholds hfine
      exact ⟨hrest.trans (by rw [hmuted]), fun hlog => hothers (haccepted hlog)⟩

/-- Time that passes without a fault passes as if the listener did nothing. -/
lemma after_advance_of_faultless (hsound : Sound ⟨[], s⟩) (h : s.HoldsOne kind) (limits : Limits)
    (time : α) (hfine : Faultless (s.after w (.advance time) limits).log) :
    s.after w (.advance time) limits = s.after w.muted (.advance time) limits ∧
      (Accepted w kind.timeline s.log →
        Accepted w kind.timeline (s.after w (.advance time) limits).log) := by
  rw [after_advance] at hfine ⊢
  rw [after_advance]
  obtain ⟨hmuted, haccepted⟩ := runDue_of_faultless hw hsound h _ _ hfine
  exact ⟨by rw [hmuted], haccepted⟩

end Stage

end Seamark
