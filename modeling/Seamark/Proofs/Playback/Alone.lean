import Seamark.Proofs.Playback.Due
import Seamark.Proofs.Playback.Shown

/-!
# Lights do not interfere

The timers of all lights wait on one clock and run in one order.  Still, what can be heard of a
light in a run is what would be heard if no other light were there: the timer of another light may
run first and move the clock, but only to a time at which the light's own timer is not due yet, so
it runs at its own time.  The two runs go abreast (`Abreast`): they show the same for the light, and
their clocks may differ only by what the light's next timer makes up for.
-/

namespace Seamark

variable {α : Type} [Scalar α]

/-- What happens to one light in one go: an action on it, or its timer that runs. -/
structure Episode (α : Type) where
  /-- The light. -/
  light : String
  /-- What was noted of it. -/
  entries : List (Entry α)

/-- What can be heard of a light in some episodes. -/
def heardOf (light : String) (episodes : List (Episode α)) : List (Entry α) :=
  (episodes.filter (·.light = light)).flatMap fun episode => heard episode.entries

omit [Scalar α] in
lemma heardOf_cons_self (light : String) (entries : List (Entry α)) (rest : List (Episode α)) :
    heardOf light (⟨light, entries⟩ :: rest) = heard entries ++ heardOf light rest := by
  simp [heardOf]

omit [Scalar α] in
lemma heardOf_cons_of_ne {light other : String} (hother : other ≠ light) (entries : List (Entry α))
    (rest : List (Episode α)) :
    heardOf light (⟨other, entries⟩ :: rest) = heardOf light rest := by
  simp [heardOf, hother]

omit [Scalar α] in
lemma heardOf_append (light : String) (episodes rest : List (Episode α)) :
    heardOf light (episodes ++ rest) = heardOf light episodes ++ heardOf light rest := by
  simp [heardOf]

/-- The operation puts a light on show, takes one off, or lets time pass. -/
def Operation.IsManaging : Operation α → Prop
  | .act action => action.light?.isSome
  | .advance _ => True
  | .fire _ => False

/-- The operation puts a light on show and announces it to a listener. -/
def Operation.Introduces (light tag : String) : Operation α → Prop
  | .act action => action.Introduces light tag
  | _ => False

/-- The operation is about the light or lets time pass. -/
def Operation.concerns (light : String) : Operation α → Bool
  | .act action => action.light? = some light
  | _ => true

namespace Stage

/-! ### Episodes -/

variable {w : Wiring α} {limits : Limits} {depth firings : Nat} {s r : Stage α} {light : String}
  {target : α} {given : String → String → Prop}

/-- The name of a player. -/
def nameOf (s : Stage α) (p : Nat) : String :=
  (s.players[p]?.map (·.name)).getD ""

/-- The stage after the timer ran that is due next, with the clock at its time. -/
def firedDue (w : Wiring α) (depth : Nat) (next : Timer α × Nat) (s : Stage α) : Stage α :=
  firedOne w depth next.2 next.1 { s with clock := greater s.clock next.1.due }

/-- The episodes while timers run that are due at a time. -/
def dueEpisodes (w : Wiring α) (depth : Nat) (target : α) : Nat → Stage α → List (Episode α)
  | 0, _ => []
  | firings + 1, s =>
    match nextDue? target s.timers with
    | none => []
    | some next =>
      let s' := s.firedDue w depth next
      ⟨s.nameOf next.1.player, s'.log.drop s.log.length⟩ :: dueEpisodes w depth target firings s'

/-- The episodes of an operation. -/
def episodesOf (w : Wiring α) (limits : Limits) (s : Stage α) : Operation α → List (Episode α)
  | .act action => [⟨action.light?.getD "", (s.after w (.act action) limits).log.drop s.log.length⟩]
  | .advance time => dueEpisodes w limits.depth (s.clock + time) limits.firings s
  | .fire _ => []

/-- The episodes of operations, one after the other. -/
def episodes (w : Wiring α) (limits : Limits) : Stage α → List (Operation α) → List (Episode α)
  | _, [] => []
  | s, operation :: operations =>
    s.episodesOf w limits operation ++ episodes w limits (s.after w operation limits) operations

/-- After each passing of time nothing is overdue: the number of timers that may run was enough. -/
def KeepsUp (w : Wiring α) (limits : Limits) : Stage α → List (Operation α) → Prop
  | _, [] => True
  | s, operation :: operations =>
    (∀ time, operation = .advance time → CaughtUp (s.after w operation limits)) ∧
      KeepsUp w limits (s.after w operation limits) operations

/-! ### What every operation keeps -/

/-- No call is in progress, the clock and the pending timers are at times, and each light is shown
to a listener that was given for it. -/
structure Tended (given : String → String → Prop) (s : Stage α) : Prop where
  /-- No call is in progress. -/
  settled : Settled s
  /-- The clock is at a time. -/
  clock : IsTime s.clock
  /-- What is shown moves on at a time. -/
  due : ∀ {light : String} {shown : Shown α}, s.shown? light = some shown → IsTime shown.due
  /-- The listener was given for the light. -/
  tag : ∀ {light : String} {shown : Shown α}, s.shown? light = some shown →
    given light shown.player.tag

/-- What is due next is the timer of some light that is on show. -/
lemma Settled.onShow_of_nextDue? (h : Settled s) {next : Timer α × Nat}
    (hnext : nextDue? target s.timers = some next) : ∃ player : Player α,
      OnShow s player.name next.1.player player next.2 next.1 ∧ next.1.state = .pending ∧
        next.1.due ≤ target ∧ s.nameOf next.1.player = player.name := by
  obtain ⟨ht, hpending, hdue⟩ := nextDue?_eq_some hnext
  obtain ⟨player, honshow⟩ := h.onShow_of_pending ht hpending
  exact ⟨player, honshow, hpending, hdue, by simp [nameOf, honshow.players]⟩

section

variable {next : Timer α × Nat} {p : Nat} {player : Player α}

/-- What the timer that is due next makes of the stage. -/
lemma OnShow.firedDue (h : OnShow s light p player next.2 next.1) (hw : w.Listens) (hs : Settled s)
    (hpending : next.1.state = .pending) (depth : Nat) :
    Settled (s.firedDue w depth next) ∧
      (s.firedDue w depth next).clock = greater s.clock next.1.due ∧
      (s.firedDue w depth next).lights = s.lights ∧
      (∀ other, light ≠ other → (s.firedDue w depth next).shown? other = s.shown? other) ∧
      ((s.firedDue w depth next).shown? light, heard (s.firedDue w depth next).log) =
        (some (Shown.fire (greater s.clock next.1.due)
            ⟨{ player with timer := none }, next.1.due⟩).1,
          heard s.log ++ (Shown.fire (greater s.clock next.1.due)
            ⟨{ player with timer := none }, next.1.due⟩).2) := by
  have hat := h.at (greater s.clock next.1.due)
  have hsat := hs.at (greater s.clock next.1.due)
  refine ⟨hat.settled_firedOne hw hsat hpending depth, hat.clock_firedOne hw hsat depth, ?_,
    fun other hother => hat.shown?_firedOne_of_ne hw hsat hother depth,
    hat.shown?_firedOne hw hsat depth⟩
  obtain ⟨segment, -, heq⟩ := hat.firedOne_eq hw hsat depth
  rw [Stage.firedDue, heq]
  rfl

end

namespace Tended

variable {action : Action}

lemma acted (h : Tended given s) (hw : w.Listens) (haction : action.light? = some light)
    (hgiven : ∀ tag, action.Introduces light tag → given light tag) :
    Tended given (s.acted w action) := by
  have hshown : ∀ {other : String} {shown : Shown α},
      (s.acted w action).shown? other = some shown → s.shown? other = some shown ∨
        IsTime shown.due ∧ given other shown.player.tag := by
    intro other shown hother
    by_cases hlight : light = other
    · subst hlight
      have hown := congrArg Prod.fst (shown?_acted h.settled haction (w := w))
      rw [hother] at hown
      rcases Shown.eq_or_started hown.symm with hold |
        ⟨light', duration, ⟨code, hearsReset, rfl⟩, hdue⟩
      · exact .inl hold
      · cases haction
        exact .inr ⟨hdue ▸ h.clock.add duration, hgiven _ ⟨code, hearsReset, rfl⟩⟩
    · rw [shown?_acted_of_ne h.settled haction hlight] at hother
      exact .inl hother
  refine ⟨h.settled.acted hw haction, ?_, fun hother => ?_, fun hother => ?_⟩
  · rw [clock_acted]
    exact h.clock
  · exact (hshown hother).elim h.due And.left
  · exact (hshown hother).elim h.tag And.right

/-- The clock comes to a time. -/
lemma isTime_greater (h : Tended given s) {shown : Shown α} (hshown : s.shown? light = some shown) :
    IsTime (greater s.clock shown.due) := by
  unfold greater
  split
  · exact h.due hshown
  · exact h.clock

lemma firedDue (h : Tended given s) (hw : w.Listens) {next : Timer α × Nat}
    (hnext : nextDue? target s.timers = some next) (depth : Nat) :
    Tended given (s.firedDue w depth next) := by
  obtain ⟨player, honshow, hpending, -⟩ := h.settled.onShow_of_nextDue? hnext
  obtain ⟨hsettled, hclock, -, hothers, hown⟩ := honshow.firedDue hw h.settled hpending depth
  have hbefore := honshow.shown?_eq
  have htime : IsTime (greater s.clock next.1.due) := h.isTime_greater hbefore
  have hshown : ∀ {other : String} {shown : Shown α},
      (s.firedDue w depth next).shown? other = some shown →
        IsTime shown.due ∧ given other shown.player.tag := by
    intro other shown hother
    by_cases hlight : player.name = other
    · subst hlight
      obtain ⟨htag, hdue⟩ := Shown.fire_fst (greater s.clock next.1.due)
        ⟨{ player with timer := none }, next.1.due⟩
      have hfst := congrArg Prod.fst hown
      rw [hother, Option.some.injEq] at hfst
      rw [hfst, htag]
      refine ⟨?_, h.tag hbefore⟩
      rcases hdue with hsame | ⟨duration, hlater⟩
      · rw [hsame]
        exact h.due hbefore
      · rw [hlater]
        exact htime.add duration
    · rw [hothers other hlight] at hother
      exact ⟨h.due hother, h.tag hother⟩
  exact ⟨hsettled, hclock ▸ htime, fun hother => (hshown hother).1, fun hother => (hshown hother).2⟩

end Tended

/-! ### Two runs abreast -/

/-- Two stages show the same for a light, and on the second one there is no other light. -/
structure Alike (given : String → String → Prop) (light : String) (s r : Stage α) : Prop where
  /-- No call is in progress on the first one. -/
  tended : Tended given s
  /-- Nor on the second one. -/
  settled : Settled r
  /-- No other light is on show on the second one. -/
  alone : ∀ other, light ≠ other → r.lights.get? other = none
  /-- The light shows the same. -/
  shown : r.shown? light = s.shown? light

/-- Two stages that are alike, with clocks that come to the same time when the light moves on. -/
structure Abreast (given : String → String → Prop) (light : String) (target : α)
    (s r : Stage α) : Prop extends Alike given light s r where
  /-- If the light moves on before the target, it does so at the same time. -/
  clock : ∀ shown, s.shown? light = some shown → shown.due ≤ target →
    greater r.clock shown.due = greater s.clock shown.due

/-- Where a light is alone, what runs next is its timer, if this is due. -/
lemma nextDue?_of_alone (h : Settled r) (halone : ∀ other, light ≠ other →
    r.lights.get? other = none) (target : α) :
    (nextDue? target r.timers = none ∧
      ∀ shown, r.shown? light = some shown → ¬ shown.due ≤ target) ∨
    ∃ next p player, nextDue? target r.timers = some next ∧
      OnShow r light p player next.2 next.1 ∧ next.1.state = .pending := by
  cases hnext : nextDue? target r.timers with
  | none =>
    refine .inl ⟨rfl, fun shown hshown => ?_⟩
    obtain ⟨p, player, t, timer, honshow, hpending, rfl⟩ := h.onShow_of_shown? hshown
    exact nextDue?_eq_none_iff.mp hnext t timer honshow.timers hpending
  | some next =>
    obtain ⟨player, honshow, hpending, -⟩ := h.onShow_of_nextDue? hnext
    have hlight : light = player.name := by
      by_contra hother
      have hlights := honshow.lights
      rw [halone _ hother] at hlights
      cases hlights
    subst hlight
    exact .inr ⟨next, _, player, rfl, honshow, hpending⟩

omit [Scalar α] in
/-- What was noted since can be heard. -/
lemma heard_drop {s' : Stage α} {entries : List (Entry α)} (hlog : s.log <+: s'.log)
    (hheard : heard s'.log = heard s.log ++ entries) :
    heard (s'.log.drop s.log.length) = entries := by
  obtain ⟨new, hnew⟩ := hlog
  rw [← hnew, heard_append] at hheard
  rw [← hnew, List.drop_left]
  exact List.append_cancel_left hheard

/-- When nothing is due on the first stage, nothing is due on the second one. -/
lemma Alike.runDue_of_none (h : Alike given light s r) (hnone : nextDue? target s.timers = none)
    (w : Wiring α) (depth firings : Nat) :
    Playback.stageOf (runDue w depth target firings r) = r := by
  rcases nextDue?_of_alone h.settled h.alone target with ⟨hnone', -⟩ |
    ⟨next, p, player, hnext, honshow, hpending⟩
  · rw [Stage.runDue_of_none hnone']
    rfl
  · have hshown := h.shown.symm.trans honshow.shown?_eq
    obtain ⟨p', player', t', timer', honshow', hpending', hsame⟩ :=
      h.tended.settled.onShow_of_shown? hshown
    have hdue : next.1.due = timer'.due := congrArg Shown.due hsame
    exact absurd (hdue ▸ (nextDue?_eq_some hnext).2.2)
      (nextDue?_eq_none_iff.mp hnone _ _ honshow'.timers hpending')

namespace Abreast

/-- The timer of another light runs. -/
lemma firedDue_other [OrderedTimes α] (h : Abreast given light target s r) (hw : w.Listens)
    {next : Timer α × Nat} (hnext : nextDue? target s.timers = some next) {player : Player α}
    (honshow : OnShow s player.name next.1.player player next.2 next.1)
    (hpending : next.1.state = .pending) (hdue : next.1.due ≤ target) (hother : player.name ≠ light)
    (depth : Nat) : Abreast given light target (s.firedDue w depth next) r := by
  obtain ⟨-, hclock, -, hothers, -⟩ := honshow.firedDue hw h.tended.settled hpending depth
  have hsame := hothers light hother
  refine ⟨⟨h.tended.firedDue hw hnext depth, h.settled, h.alone, h.shown.trans hsame.symm⟩, ?_⟩
  intro shown hshown hshowndue
  rw [hsame] at hshown
  obtain ⟨p, player', t, timer, honshow', hpending', rfl⟩ :=
    h.tended.settled.onShow_of_shown? hshown
  -- the other timer was due first, so the clock did not pass the time of the light
  rw [hclock, greater_greater (h.tended.due honshow.shown?_eq) (h.tended.due hshown) hdue hshowndue
    (not_lt_of_nextDue? hnext honshow'.timers hpending' hshowndue)]
  exact h.clock _ hshown hshowndue

/-- The timer of the light runs on both stages. -/
lemma firedDue_both (h : Abreast given light target s r) (hw : w.Listens)
    {next next' : Timer α × Nat} {p p' : Nat} {player player' : Player α}
    (hnext : nextDue? target s.timers = some next)
    (honshow : OnShow s light p player next.2 next.1) (hpending : next.1.state = .pending)
    (hdue : next.1.due ≤ target) (honshow' : OnShow r light p' player' next'.2 next'.1)
    (hpending' : next'.1.state = .pending) (depth : Nat) :
    Abreast given light target (s.firedDue w depth next) (r.firedDue w depth next') ∧
      ∃ entries, heard (s.firedDue w depth next).log = heard s.log ++ entries ∧
        heard (r.firedDue w depth next').log = heard r.log ++ entries := by
  obtain ⟨-, hclock, -, -, hown⟩ := honshow.firedDue hw h.tended.settled hpending depth
  obtain ⟨hsettled', hclock', hlights', -, hown'⟩ := honshow'.firedDue hw h.settled hpending' depth
  have hshown : some _ = some _ :=
    honshow'.shown?_eq.symm.trans (h.shown.trans honshow.shown?_eq)
  have hsame := Option.some.inj hshown
  have hsamedue : next'.1.due = next.1.due := congrArg Shown.due hsame
  have htime : greater r.clock next.1.due = greater s.clock next.1.due :=
    h.clock _ honshow.shown?_eq hdue
  rw [hsame, hsamedue, htime] at hown'
  rw [hsamedue, htime, ← hclock] at hclock'
  rw [Prod.mk.injEq] at hown hown'
  refine ⟨⟨⟨h.tended.firedDue hw hnext depth, hsettled', ?_, hown'.1.trans hown.1.symm⟩, ?_⟩,
    _, hown.2, hown'.2⟩
  · intro other hother
    rw [hlights']
    exact h.alone other hother
  · intro shown _ _
    rw [hclock']

/-- While time passes, the light is heard on both stages alike, if no timer is left overdue on the
first one. On the second one no more timers run than on the first. -/
lemma runDue [OrderedTimes α] (h : Abreast given light target s r) (hw : w.Listens) {firings' : Nat}
    (hfirings : firings ≤ firings') (hcaught : nextDue? target
      (Playback.stageOf (runDue w depth target firings s)).timers = none) :
    Alike given light (Playback.stageOf (runDue w depth target firings s))
        (Playback.stageOf (runDue w depth target firings' r)) ∧
      heard (Playback.stageOf (runDue w depth target firings' r)).log =
        heard r.log ++ heardOf light (dueEpisodes w depth target firings s) := by
  induction firings generalizing s r firings' with
  | zero =>
    rw [h.runDue_of_none hcaught]
    exact ⟨h.toAlike, (List.append_nil _).symm⟩
  | succ firings ih =>
    cases hnext : nextDue? target s.timers with
    | none =>
      rw [h.runDue_of_none hnext, Stage.runDue_of_none hnext, dueEpisodes, hnext]
      exact ⟨h.toAlike, (List.append_nil _).symm⟩
    | some next =>
      obtain ⟨player, honshow, hpending, hdue, hname⟩ := h.tended.settled.onShow_of_nextDue? hnext
      have hlog : s.log <+: (s.firedDue w depth next).log :=
        (path_due hw.resets (asks_anything w) h.tended.settled.sound depth hnext).later.log
      rw [runDue_of_some hnext] at hcaught ⊢
      rw [dueEpisodes, hnext]
      dsimp only
      rw [hname]
      by_cases hother : player.name = light
      · subst hother
        rcases nextDue?_of_alone h.settled h.alone target with ⟨-, hnot⟩ |
          ⟨next', p', player', hnext', honshow', hpending'⟩
        · exact absurd hdue (hnot _ (h.shown.trans honshow.shown?_eq))
        · obtain ⟨firings', rfl⟩ : ∃ n, firings' = n + 1 := ⟨firings' - 1, by omega⟩
          obtain ⟨habreast, entries, hheard, hheard'⟩ :=
            h.firedDue_both hw hnext honshow hpending hdue honshow' hpending' depth
          obtain ⟨halike, hrest⟩ := ih habreast (Nat.le_of_succ_le_succ hfirings) hcaught
          rw [runDue_of_some hnext']
          refine ⟨halike, hrest.trans ?_⟩
          rw [hheard', heardOf_cons_self, heard_drop hlog hheard, List.append_assoc]
      · rw [heardOf_cons_of_ne hother]
        exact ih (h.firedDue_other hw hnext honshow hpending hdue hother depth)
          (Nat.le_of_succ_le hfirings) hcaught

end Abreast

/-! ### Operations -/

section

variable {action : Action}

lemma lights_acted_of_ne {other : String} (haction : action.light? = some light)
    (hother : light ≠ other) : (s.acted w action).lights.get? other = s.lights.get? other := by
  have hwithout : (s.withoutLight light).lights.get? other = s.lights.get? other := by
    rw [lights_withoutLight, if_neg (Ne.symm hother)]
  cases action with
  | stopLight _ =>
    cases haction
    exact hwithout
  | startLight _ code tag hearsReset =>
    cases haction
    rw [acted]
    cases w.timelineOf code with
    | error cause => rfl
    | ok ts =>
      cases ts with
      | nil => cases hearsReset <;> exact hwithout
      | cons segment rest =>
        show (s.withLight light _ segment).lights.get? other = _
        rw [lights_withLight, Table.get?_set, if_neg (Ne.symm hother)]
  | fail | start | stop | stopAll => cases haction

lemma log_prefix_after (hw : w.Listens) (h : Settled s) (limits : Limits)
    (operation : Operation α) : s.log <+: (s.after w operation limits).log :=
  (path_after hw.resets (asks_anything w) h.sound limits
    (by cases operation <;> trivial)).later.log

/-- An action on another light. -/
lemma Alike.acted_other (h : Alike given light s r) (hw : w.Listens) {other : String}
    (haction : action.light? = some other) (hother : other ≠ light)
    (hgiven : ∀ tag, action.Introduces other tag → given other tag) :
    Alike given light (s.acted w action) r :=
  ⟨h.tended.acted hw haction hgiven, h.settled, h.alone,
    h.shown.trans (shown?_acted_of_ne h.tended.settled haction hother).symm⟩

/-- An action on the light on both stages. -/
lemma Alike.acted_both (h : Alike given light s r) (hw : w.Listens) (hclock : r.clock = s.clock)
    (haction : action.light? = some light)
    (hgiven : ∀ tag, action.Introduces light tag → given light tag) :
    Alike given light (s.acted w action) (r.acted w action) ∧
      ∃ entries, heard (s.acted w action).log = heard s.log ++ entries ∧
        heard (r.acted w action).log = heard r.log ++ entries := by
  have hown := shown?_acted h.tended.settled haction (w := w)
  have hown' := shown?_acted h.settled haction (w := w)
  rw [hclock, h.shown] at hown'
  rw [Prod.mk.injEq] at hown hown'
  refine ⟨⟨h.tended.acted hw haction hgiven, h.settled.acted hw haction, fun other hother => ?_,
    hown'.1.trans hown.1.symm⟩, _, hown.2, hown'.2⟩
  rw [lights_acted_of_ne haction hother]
  exact h.alone other hother

/-- The clocks are set to one time. -/
lemma Alike.at (h : Alike given light s r) {clock : α} (hclock : IsTime clock) :
    Alike given light { s with clock := clock } { r with clock := clock } :=
  ⟨⟨h.tended.settled.at clock, hclock, h.tended.due, h.tended.tag⟩, h.settled.at clock, h.alone,
    h.shown⟩

/-- The second stage after an operation that is left out there if it is about another light. -/
def afterOwn (w : Wiring α) (limits : Limits) (light : String) (r : Stage α)
    (operation : Operation α) : Stage α :=
  if operation.concerns light then r.after w operation limits else r

/-- An operation keeps two stages alike, and the light is heard on both alike. -/
lemma Alike.after [OrderedTimes α] (h : Alike given light s r) (hw : w.Listens)
    (hclock : r.clock = s.clock) {operation : Operation α} (hmanaging : operation.IsManaging)
    (hgiven : ∀ light tag, operation.Introduces light tag → given light tag)
    (hcaught : ∀ time, operation = .advance time → CaughtUp (s.after w operation limits)) :
    Alike given light (s.after w operation limits) (r.afterOwn w limits light operation) ∧
      (r.afterOwn w limits light operation).clock = (s.after w operation limits).clock ∧
      heard (r.afterOwn w limits light operation).log =
        heard r.log ++ heardOf light (s.episodesOf w limits operation) := by
  cases operation with
  | fire t => exact hmanaging.elim
  | act action =>
    obtain ⟨other, haction⟩ := Option.isSome_iff_exists.mp hmanaging
    have hlog := log_prefix_after hw h.tended.settled limits (.act action)
    have hafter : s.after w (.act action) limits = s.acted w action :=
      after_act hw h.tended.settled.listed haction
    rw [hafter] at hlog
    rw [episodesOf, hafter, haction, Option.getD_some, clock_acted]
    by_cases hother : other = light
    · subst hother
      obtain ⟨halike, entries, hheard, hheard'⟩ := h.acted_both hw hclock haction (hgiven other)
      rw [afterOwn, if_pos (by simp [Operation.concerns, haction]),
        after_act hw h.settled.listed haction, heardOf_cons_self, heard_drop hlog hheard]
      exact ⟨halike, (clock_acted w r action).trans hclock, hheard'.trans (by simp [heardOf])⟩
    · rw [afterOwn, if_neg (by simpa [Operation.concerns, haction] using hother),
        heardOf_cons_of_ne hother]
      exact ⟨h.acted_other hw haction hother (hgiven other), hclock, (List.append_nil _).symm⟩
  | advance time =>
    have habreast : Abreast given light (s.clock + time) s r :=
      ⟨h, fun shown _ _ => by rw [hclock]⟩
    have hnone := hcaught time rfl
    rw [CaughtUp, after_advance] at hnone
    obtain ⟨halike, hheard⟩ := habreast.runDue hw le_rfl hnone
    rw [afterOwn, if_pos (by simp [Operation.concerns]), after_advance, after_advance, hclock]
    exact ⟨halike.at (h.tended.clock.add time), rfl, hheard⟩

lemma run_filter_cons (w : Wiring α) (limits : Limits) (light : String) (r : Stage α)
    (operation : Operation α) (operations : List (Operation α)) :
    r.run w limits ((operation :: operations).filter (·.concerns light)) =
      (r.afterOwn w limits light operation).run w limits
        (operations.filter (·.concerns light)) := by
  rw [List.filter_cons, afterOwn]
  split <;> rfl

/-- In a run a light is heard as in the run of the operations that concern it. -/
lemma Alike.run [OrderedTimes α] (h : Alike given light s r) (hw : w.Listens)
    (hclock : r.clock = s.clock) {operations : List (Operation α)}
    (hmanaging : ∀ operation ∈ operations, operation.IsManaging)
    (hgiven : ∀ operation ∈ operations, ∀ light tag, operation.Introduces light tag →
      given light tag)
    (hkeeps : KeepsUp w limits s operations) :
    heard (r.run w limits (operations.filter (·.concerns light))).log =
      heard r.log ++ heardOf light (episodes w limits s operations) := by
  induction operations generalizing s r with
  | nil => exact (List.append_nil _).symm
  | cons operation operations ih =>
    obtain ⟨halike, hclock', hheard⟩ := h.after hw hclock (hmanaging operation (by simp))
      (hgiven operation (by simp)) hkeeps.1
    have hrest := ih halike hclock' (fun other hother => hmanaging other (by simp [hother]))
      (fun other hother => hgiven other (by simp [hother])) hkeeps.2
    rw [run_filter_cons, hrest, hheard, episodes, heardOf_append, List.append_assoc]

/-! ### What an episode tells -/

/-- What is heard of an action tells of its light. -/
lemma Tended.tellsOf_act (h : Tended given s) (haction : action.light? = some light)
    (hgiven : ∀ tag, action.Introduces light tag → given light tag) :
    ∀ entry ∈ (Shown.act w s.clock (s.shown? light) action).2,
      entry.event.TellsOf light (given light) :=
  Shown.tellsOf_act haction hgiven fun _ hshown => ⟨h.settled.name_of_shown? hshown, h.tag hshown⟩

/-- What is heard while timers run tells of the lights whose timers they are. -/
lemma Tended.tellsOf_dueEpisodes (h : Tended given s) (hw : w.Listens) (depth : Nat) (target : α)
    (firings : Nat) : Tended given (Playback.stageOf (runDue w depth target firings s)) ∧
      ∀ episode ∈ dueEpisodes w depth target firings s, ∀ entry ∈ heard episode.entries,
        entry.event.TellsOf episode.light (given episode.light) := by
  induction firings generalizing s with
  | zero => exact ⟨h, by simp [dueEpisodes]⟩
  | succ firings ih =>
    cases hnext : nextDue? target s.timers with
    | none =>
      rw [runDue_of_none hnext, dueEpisodes, hnext]
      exact ⟨h, by simp⟩
    | some next =>
      obtain ⟨player, honshow, hpending, -, hname⟩ := h.settled.onShow_of_nextDue? hnext
      obtain ⟨-, -, -, -, hown⟩ := honshow.firedDue hw h.settled hpending depth
      obtain ⟨htended, hrest⟩ := ih (h.firedDue hw hnext depth)
      have hlog : s.log <+: (s.firedDue w depth next).log :=
        (path_due hw.resets (asks_anything w) h.settled.sound depth hnext).later.log
      rw [runDue_of_some hnext, dueEpisodes, hnext]
      refine ⟨htended, fun episode hepisode => ?_⟩
      rcases List.mem_cons.mp hepisode with rfl | hepisode
      · dsimp only
        rw [hname, heard_drop hlog (congrArg Prod.snd hown)]
        exact Shown.tellsOf_fire (h.tag honshow.shown?_eq)
      · exact hrest episode hepisode

/-- The log of the timers that run is that of their episodes. -/
lemma log_runDue (hw : w.Listens) (h : Settled s) (depth : Nat) (target : α) (firings : Nat) :
    (Playback.stageOf (runDue w depth target firings s)).log =
      s.log ++ (dueEpisodes w depth target firings s).flatMap (·.entries) := by
  induction firings generalizing s with
  | zero => exact (List.append_nil _).symm
  | succ firings ih =>
    cases hnext : nextDue? target s.timers with
    | none =>
      rw [runDue_of_none hnext, dueEpisodes, hnext]
      exact (List.append_nil _).symm
    | some next =>
      obtain ⟨player, honshow, hpending, -⟩ := h.onShow_of_nextDue? hnext
      have hsettled := (honshow.firedDue hw h hpending depth).1
      obtain ⟨new, hnew⟩ : s.log <+: (s.firedDue w depth next).log :=
        (path_due hw.resets (asks_anything w) h.sound depth hnext).later.log
      rw [runDue_of_some hnext, dueEpisodes, hnext]
      refine (ih hsettled).trans ?_
      dsimp only
      rw [List.flatMap_cons, ← hnew, List.drop_left, List.append_assoc]

/-- What an operation adds to the log are its episodes, and each tells of its light. -/
lemma Tended.after (h : Tended given s) (hw : w.Listens) {operation : Operation α}
    (hmanaging : operation.IsManaging)
    (hgiven : ∀ light tag, operation.Introduces light tag → given light tag)
    (limits : Limits) :
    Tended given (s.after w operation limits) ∧
      (s.after w operation limits).log =
        s.log ++ (s.episodesOf w limits operation).flatMap (·.entries) ∧
      ∀ episode ∈ s.episodesOf w limits operation, ∀ entry ∈ heard episode.entries,
        entry.event.TellsOf episode.light (given episode.light) := by
  cases operation with
  | fire t => exact hmanaging.elim
  | act action =>
    obtain ⟨light, haction⟩ := Option.isSome_iff_exists.mp hmanaging
    have hlog := log_prefix_after hw h.settled limits (.act action)
    have hafter : s.after w (.act action) limits = s.acted w action :=
      after_act hw h.settled.listed haction
    rw [hafter] at hlog
    rw [episodesOf, hafter, haction, Option.getD_some]
    refine ⟨h.acted hw haction (hgiven light), ?_, fun episode hepisode => ?_⟩
    · obtain ⟨new, hnew⟩ := hlog
      rw [← hnew, List.flatMap_singleton, List.drop_left]
    · rw [List.mem_singleton.mp hepisode]
      dsimp only
      rw [heard_drop hlog (congrArg Prod.snd (shown?_acted h.settled haction))]
      exact h.tellsOf_act haction (hgiven light)
  | advance time =>
    obtain ⟨htended, htells⟩ :=
      h.tellsOf_dueEpisodes hw limits.depth (s.clock + time) limits.firings
    rw [after_advance]
    exact ⟨⟨htended.settled.at _, h.clock.add time, htended.due, htended.tag⟩,
      log_runDue hw h.settled _ _ _, htells⟩

/-- The log of a run is that of its episodes, and each tells of its light. -/
lemma Tended.run (h : Tended given s) (hw : w.Listens) {operations : List (Operation α)}
    (hmanaging : ∀ operation ∈ operations, operation.IsManaging)
    (hgiven : ∀ operation ∈ operations, ∀ light tag, operation.Introduces light tag →
      given light tag)
    (limits : Limits) :
    (s.run w limits operations).log =
        s.log ++ (episodes w limits s operations).flatMap (·.entries) ∧
      ∀ episode ∈ episodes w limits s operations, ∀ entry ∈ heard episode.entries,
        entry.event.TellsOf episode.light (given episode.light) := by
  induction operations generalizing s with
  | nil => exact ⟨(List.append_nil _).symm, by simp [episodes]⟩
  | cons operation operations ih =>
    obtain ⟨htended, hlog, htells⟩ := h.after hw (hmanaging operation (by simp))
      (hgiven operation (by simp)) limits
    obtain ⟨hlogs, hrest⟩ := ih htended (fun other hother => hmanaging other (by simp [hother]))
      (fun other hother => hgiven other (by simp [hother]))
    rw [run_cons, episodes, hlogs, hlog, List.flatMap_append, List.append_assoc]
    exact ⟨rfl, fun episode hepisode =>
      (List.mem_append.mp hepisode).elim (htells episode) (hrest episode)⟩

end

/-! ### Every run -/

lemma settled_initial : Settled (initial : Stage α) :=
  ⟨sound_empty _, listed_empty _⟩

/-- **Lights do not interfere.** In a run in which lights are put on show and taken off and time
passes, where the listeners only listen and the number of timers that may run is always enough, what
is heard of a light, with the times, is what is heard in all of the run that is left without the
operations on other lights. What happens to each light are the episodes that make up the log; all
that is heard in an episode names its light or is announced to a listener given for it. The times
are doubles, rationals, or any other ones in order. -/
theorem run_alone [OrderedTimes α] (w : Wiring α) (hw : w.Listens) (limits : Limits)
    (light : String) (operations : List (Operation α))
    (hmanaging : ∀ operation ∈ operations, operation.IsManaging)
    (hkeeps : KeepsUp w limits initial operations) :
    heardOf light (episodes w limits initial operations) =
        heard (run w limits initial (operations.filter (·.concerns light))).log ∧
      (run w limits initial operations).log =
        (episodes w limits initial operations).flatMap (·.entries) ∧
      ∀ episode ∈ episodes w limits initial operations, ∀ entry ∈ heard episode.entries,
        entry.event.TellsOf episode.light fun tag =>
          ∃ operation ∈ operations, operation.Introduces episode.light tag := by
  have hshown : ∀ light, (initial : Stage α).shown? light = none :=
    fun _ => shown?_of_get?_eq_none rfl
  have htended : Tended (fun light tag => ∃ operation ∈ operations, operation.Introduces light tag)
      (initial : Stage α) :=
    ⟨settled_initial, .zero, fun h => by simp [hshown] at h, fun h => by simp [hshown] at h⟩
  have halike : Alike _ light initial initial := ⟨htended, settled_initial, fun _ _ => rfl, rfl⟩
  have hgiven : ∀ operation ∈ operations, ∀ light tag, operation.Introduces light tag →
      ∃ operation ∈ operations, operation.Introduces light tag :=
    fun operation hmem _ _ hstart => ⟨operation, hmem, hstart⟩
  exact ⟨(halike.run hw rfl hmanaging hgiven hkeeps).symm, htended.run hw hmanaging hgiven limits⟩

/-- Listeners that only listen; one notation blinks slowly and all others fast. -/
def twinkling : Wiring Float where
  scriptOf _ := {}
  timelineOf code := .ok (if code = some "slow" then [⟨true, 2.0, "W", 1.0⟩, ⟨false, 1.0, "W", 0.0⟩]
    else [⟨true, 0.5, "R", 1.0⟩, ⟨false, 0.5, "R", 0.0⟩])

/-- Two lights come and go. -/
def twinklingRun : List (Operation Float) :=
  [.act (.startLight "a" (some "slow") "left" true),
    .act (.startLight "b" (some "fast") "right" true),
    .advance 2.0, .act (.startLight "b" (some "slow") "left" false), .advance 1.5,
    .act (.stopLight "b"), .act (.startLight "a" (some "fast") "right" true), .advance 1.0]

/-- What is heard of one of two lights that share listeners and whose timers run at one time. -/
theorem twinkling_run_alone :
    KeepsUp twinkling {} initial twinklingRun ∧
      heardOf "a" (episodes twinkling {} initial twinklingRun) =
        heard (run twinkling {} initial
          [.act (.startLight "a" (some "slow") "left" true), .advance 2.0, .advance 1.5,
            .act (.startLight "a" (some "fast") "right" true), .advance 1.0]).log := by
  have hkeeps : KeepsUp twinkling {} initial twinklingRun := by
    -- only after the three times that pass is something to be shown
    refine ⟨?_, ?_, ?_, ?_, ?_, ?_, ?_, ?_, trivial⟩ <;> intro time htime <;> cases htime <;>
      unfold CaughtUp <;> decide +kernel
  have halone := run_alone twinkling ⟨fun _ _ => rfl, fun _ _ _ _ => rfl⟩ {} "a" twinklingRun
    (by simp [twinklingRun, Operation.IsManaging, Action.light?]) hkeeps
  exact ⟨hkeeps, halone.1⟩

end Stage

end Seamark
