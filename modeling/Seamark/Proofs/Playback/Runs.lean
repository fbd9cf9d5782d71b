import Seamark.Proofs.Playback.Sound

/-!
# Runs

A run is a list of operations carried out one after the other, each when the one before it is over.
It is a path of moves without an open turn at its ends, so it keeps a stage sound.

No move takes anything back: events stay in the log, players keep their names and timelines, and
their generations only grow (`Later`).
-/

namespace Seamark

variable {α : Type} [Scalar α]

/-- The operation asks only for what may be asked for. -/
def Operation.Asks (asked : Action → Prop) : Operation α → Prop
  | .act action => asked action
  | _ => True

namespace Stage

/-- The stage after operations, one after the other. -/
def run (w : Wiring α) (limits : Limits) (s : Stage α) (operations : List (Operation α)) :
    Stage α :=
  operations.foldl (fun s operation => s.after w operation limits) s

@[simp] lemma run_nil (w : Wiring α) (limits : Limits) (s : Stage α) : s.run w limits [] = s := rfl

@[simp] lemma run_cons (w : Wiring α) (limits : Limits) (s : Stage α) (operation : Operation α)
    (operations : List (Operation α)) :
    s.run w limits (operation :: operations) =
      (s.after w operation limits).run w limits operations :=
  rfl

lemma after_eq_stageOf (w : Wiring α) (limits : Limits) (s : Stage α) (operation : Operation α) :
    s.after w operation limits = Playback.stageOf (operate w limits operation s) := by
  unfold after Playback.stageOf
  cases operate w limits operation s <;> rfl

/-! ### The timer that is due -/

/-- A fold that keeps what it has or takes what comes ends with something that came. -/
lemma mem_of_foldl_eq_some {β : Type} {f : Option β → β → Option β}
    (hf : ∀ best x, f best x = some x ∨ f best x = best) {xs : List β} {init : Option β} {x : β}
    (h : xs.foldl f init = some x) : x ∈ xs ∨ init = some x := by
  induction xs generalizing init with
  | nil => exact .inr h
  | cons y ys ih =>
    rcases ih h with hmem | hinit
    · exact .inl (List.mem_cons_of_mem _ hmem)
    · rcases hf init y with hy | hkeep
      · rw [hy, Option.some.injEq] at hinit
        exact .inl (by simp [hinit])
      · exact .inr (hkeep ▸ hinit)

/-- The timer that runs first is a pending one whose time has come. -/
lemma nextDue?_eq_some {target : α} {timers : List (Timer α)} {timer : Timer α} {t : Nat}
    (h : nextDue? target timers = some (timer, t)) :
    timers[t]? = some timer ∧ timer.state = .pending ∧ timer.due ≤ target := by
  have hmem : (timer, t) ∈ (timers.zipIdx.filter fun entry =>
      entry.1.state = .pending && entry.1.due ≤ target) ∨ none = some (timer, t) := by
    refine mem_of_foldl_eq_some (fun best entry => ?_) h
    cases best with
    | none => exact .inl rfl
    | some b =>
      dsimp only
      split <;> simp
  -- the choice among the timers that are due keeps one of them
  rcases hmem with hmem | hnone
  · simp only [List.mem_filter, Bool.and_eq_true, decide_eq_true_eq] at hmem
    exact ⟨List.mem_zipIdx_iff_getElem?.mp hmem.1, hmem.2.1, hmem.2.2⟩
  · exact absurd hnone (by simp)

/-! ### What runs when time passes -/

variable {w : Wiring α} {s : Stage α} {depth : Nat}

omit [Scalar α] in
/-- A fault that is noted does not leave. -/
lemma noting_eq_ok (m : Playback α Unit) (s : Stage α) :
    noting m s = .ok ⟨⟩ (Playback.stageOf (noting m s)) := by
  rw [noting, Playback.tryCatch_apply]
  cases m s <;> rfl

/-- The stage after a timer ran. -/
def firedOne (w : Wiring α) (depth t : Nat) (timer : Timer α) (s : Stage α) : Stage α :=
  Playback.stageOf (noting (Player.advance w (react w depth) timer.player timer.generation)
    (s.withFired t timer))

lemma runTimer_eq (w : Wiring α) (depth t : Nat) (timer : Timer α) (s : Stage α) :
    runTimer w depth t timer s = .ok ⟨⟩ (s.firedOne w depth t timer) :=
  noting_eq_ok _ _

lemma runDue_of_none {target : α} (hnext : nextDue? target s.timers = none) (depth firings : Nat) :
    runDue w depth target firings s = .ok ⟨⟩ s := by
  cases firings with
  | zero => rfl
  | succ firings => simp [runDue, hnext]

lemma runDue_of_some {target : α} {timer : Timer α} {t : Nat}
    (hnext : nextDue? target s.timers = some (timer, t)) (depth firings : Nat) :
    runDue w depth target (firings + 1) s = runDue w depth target firings
      (firedOne w depth t timer { s with clock := greater s.clock timer.due }) := by
  simp [runDue, hnext, runTimer_eq]

/-- No fault leaves the timers that run. -/
lemma runDue_eq_ok (w : Wiring α) (depth : Nat) (target : α) (firings : Nat) (s : Stage α) :
    runDue w depth target firings s =
      .ok ⟨⟩ (Playback.stageOf (runDue w depth target firings s)) := by
  induction firings generalizing s with
  | zero => rfl
  | succ firings ih =>
    cases hnext : nextDue? target s.timers with
    | none =>
      rw [runDue_of_none hnext]
      rfl
    | some entry =>
      rw [runDue_of_some hnext]
      exact ih _

/-- The stage after some time. -/
lemma after_advance (w : Wiring α) (limits : Limits) (s : Stage α) (time : α) :
    s.after w (.advance time) limits =
      { Playback.stageOf (runDue w limits.depth (s.clock + time) limits.firings s) with
        clock := s.clock + time } := by
  rw [after_eq_stageOf]
  simp only [operate, pass, Playback.bind_apply, Playback.get_apply, Playback.modify_apply]
  rw [runDue_eq_ok]
  rfl

lemma after_fire_of_some {t : Nat} {timer : Timer α} (ht : s.timers[t]? = some timer)
    (hstate : timer.state ≠ .fired) (w : Wiring α) (limits : Limits) :
    s.after w (.fire t) limits = s.firedOne w limits.depth t timer := by
  rw [after_eq_stageOf]
  simp [operate, fireLate, ht, hstate, runTimer_eq]

/-- To run a timer late is to run it if it did not run before, and else only to note this. -/
lemma after_fire (w : Wiring α) (limits : Limits) (s : Stage α) (t : Nat) :
    s.after w (.fire t) limits = s.noted .nothingToFire ∨
      ∃ timer, s.timers[t]? = some timer ∧ timer.state ≠ .fired ∧
        s.after w (.fire t) limits = s.firedOne w limits.depth t timer := by
  cases ht : s.timers[t]? with
  | none =>
    left
    rw [after_eq_stageOf]
    simp [operate, fireLate, ht, note_apply]
  | some timer =>
    by_cases hstate : timer.state = .fired
    · left
      rw [after_eq_stageOf]
      simp [operate, fireLate, ht, hstate, note_apply]
    · exact .inr ⟨timer, rfl, hstate, after_fire_of_some ht hstate w limits⟩

/-! ### Operations are paths -/

variable {asked : Action → Prop}

/-- Noting a fault is one more move. -/
lemma path_noting {m : Playback α Unit} {a : Scene α}
    (hpath : Path asked a ⟨[], Playback.stageOf (m s)⟩) :
    Path asked a ⟨[], Playback.stageOf (noting m s)⟩ := by
  rw [noting, Playback.tryCatch_apply]
  cases hs : m s with
  | ok _ s' =>
    rw [hs] at hpath
    exact hpath
  | error fault s' =>
    rw [hs] at hpath
    exact hpath.tail (.noted [] s' (.raised fault) trivial)

/-- A timer that runs does nothing if its player is no longer in its generation; else it opens a
turn of its player at the next segment. -/
lemma advance_withFired (hsound : Sound ⟨[], s⟩) (w : Wiring α) (depth t : Nat) (timer : Timer α) :
    (¬ s.IsCurrent timer.player timer.generation ∧
      Player.advance w (react w depth) timer.player timer.generation (s.withFired t timer) =
        .ok ⟨⟩ (s.withFired t timer)) ∨
    ∃ player segment, s.players[timer.player]? = some player ∧ player.running = true ∧
      player.generation = timer.generation ∧
      player.timeline[player.nextIndex]? = some segment ∧
      Player.advance w (react w depth) timer.player timer.generation (s.withFired t timer) =
        endTurn w depth ⟨timer.player, timer.generation, segment⟩
          (react w depth (some timer.player) (replies w player player.nextIndex segment)
            ((s.withFired t timer).nextTurn timer.player player segment)) := by
  by_cases hcurrent : s.IsCurrent timer.player timer.generation
  · obtain ⟨player, hp, hrun, hgen⟩ := hcurrent
    have hpos := (hsound.player hp).inRange hrun
    have hnext : player.nextIndex < player.timeline.length := Nat.mod_lt _ (by omega)
    have hseg := List.getElem?_eq_getElem hnext
    have hmoved := Player.advance_eq (s := s.withFired t timer) w depth hp hrun hseg
    rw [hgen] at hmoved
    exact .inr ⟨player, _, hp, hrun, hgen, hseg, hmoved⟩
  · exact .inl ⟨hcurrent, Player.advance_of_not_current (s := s.withFired t timer) hcurrent depth⟩

/-- Running a timer that did not run before is a path. -/
lemma path_firedOne (hw : w.QuietResets) (hasks : w.Asks asked) (hsound : Sound ⟨[], s⟩)
    (depth : Nat) {t : Nat} {timer : Timer α} (ht : s.timers[t]? = some timer)
    (hstate : timer.state ≠ .fired) :
    Path asked ⟨[], s⟩ ⟨[], s.firedOne w depth t timer⟩ := by
  refine path_noting ?_
  rcases advance_withFired hsound w depth t timer with
    ⟨hcurrent, hadvance⟩ | ⟨player, segment, hp, hrun, hgen, hseg, hadvance⟩
  · rw [hadvance]
    exact .single (.late [] ht hcurrent)
  -- the timer and its announcement are one move, the rest of the turn is a path
  · rw [hadvance]
    exact .head (.moved ht hstate hp hrun hgen hseg)
      (Player.path_endTurn hw [] _ _ (isPath_replies hw hasks depth _ _ _ _))

/-- Running the timer that is due, with the clock at its time, is a path. -/
lemma path_due (hw : w.QuietResets) (hasks : w.Asks asked) (hsound : Sound ⟨[], s⟩) (depth : Nat)
    {target : α} {timer : Timer α} {t : Nat}
    (hnext : nextDue? target s.timers = some (timer, t)) :
    Path asked ⟨[], s⟩
      ⟨[], firedOne w depth t timer { s with clock := greater s.clock timer.due }⟩ := by
  obtain ⟨ht, hpending, -⟩ := nextDue?_eq_some hnext
  have hticked : Path asked ⟨[], s⟩ ⟨[], { s with clock := greater s.clock timer.due }⟩ :=
    .single (.ticked [] s _)
  exact hticked.trans
    (path_firedOne hw hasks (hticked.sound hsound) depth (t := t) ht (by simp [hpending]))

/-- Running the timers that are due is a path. -/
lemma path_runDue (hw : w.QuietResets) (hasks : w.Asks asked) (hsound : Sound ⟨[], s⟩)
    (depth : Nat) (target : α) (firings : Nat) :
    Path asked ⟨[], s⟩ ⟨[], Playback.stageOf (runDue w depth target firings s)⟩ := by
  induction firings generalizing s with
  | zero => exact .refl
  | succ firings ih =>
    cases hnext : nextDue? target s.timers with
    | none =>
      rw [runDue_of_none hnext]
      exact .refl
    | some entry =>
      have hdue := path_due hw hasks hsound depth hnext
      rw [runDue_of_some hnext]
      exact hdue.trans (ih (Path.sound hdue hsound))

/-- Every operation is a path, and so leaves no turn open. -/
theorem path_after (hw : w.QuietResets) (hasks : w.Asks asked) (hsound : Sound ⟨[], s⟩)
    (limits : Limits) {operation : Operation α} (hoperation : operation.Asks asked) :
    Path asked ⟨[], s⟩ ⟨[], s.after w operation limits⟩ := by
  cases operation with
  | act action =>
    rw [after_eq_stageOf]
    exact path_noting (isPath_perform hw hasks (limits.depth + 1) (some 0) hoperation [] s)
  | advance time =>
    rw [after_advance]
    exact (path_runDue hw hasks hsound limits.depth (s.clock + time) limits.firings).tail
      (.ticked [] _ _)
  | fire t =>
    rcases after_fire w limits s t with hnothing | ⟨timer, ht, hstate, hfired⟩
    · rw [hnothing]
      exact .single (.noted [] s .nothingToFire trivial)
    · rw [hfired]
      exact path_firedOne hw hasks hsound limits.depth ht hstate

/-- Every run is a path. -/
theorem path_run (hw : w.QuietResets) (hasks : w.Asks asked) (hsound : Sound ⟨[], s⟩)
    (limits : Limits) {operations : List (Operation α)}
    (hoperations : ∀ operation ∈ operations, operation.Asks asked) :
    Path asked ⟨[], s⟩ ⟨[], s.run w limits operations⟩ := by
  induction operations generalizing s with
  | nil => exact .refl
  | cons operation operations ih =>
    have hafter := path_after hw hasks hsound limits (hoperations operation (by simp))
    exact hafter.trans
      (ih (hafter.sound hsound) fun other hother => hoperations other (by simp [hother]))

end Stage

/-! ### What stays -/

/-- A player after some moves: what it is stays, and its generation only grows. -/
structure Player.Grows (player player' : Player α) : Prop where
  /-- The name stays. -/
  name : player'.name = player.name
  /-- The timeline stays. -/
  timeline : player'.timeline = player.timeline
  /-- The tag stays. -/
  tag : player'.tag = player.tag
  /-- The generation does not fall back. -/
  generation : player.generation ≤ player'.generation

/-- A stage after some moves: nothing that it had is taken back. -/
structure Later (s s' : Stage α) : Prop where
  /-- What was noted stays noted. -/
  log : s.log <+: s'.log
  /-- Every player is still there. -/
  players : ∀ {p : Nat} {player : Player α}, s.players[p]? = some player →
    ∃ player' : Player α, s'.players[p]? = some player' ∧ player.Grows player'
  /-- Every timer is still there, and is for the same player and generation. -/
  timers : ∀ {t : Nat} {timer : Timer α}, s.timers[t]? = some timer →
    ∃ timer' : Timer α, s'.timers[t]? = some timer' ∧ timer'.player = timer.player ∧
      timer'.generation = timer.generation

namespace Player.Grows

omit [Scalar α]

lemma refl (player : Player α) : player.Grows player :=
  ⟨rfl, rfl, rfl, le_rfl⟩

lemma halted (player : Player α) : player.Grows player.halted :=
  ⟨rfl, rfl, rfl, Nat.le_succ _⟩

lemma begun (player : Player α) : player.Grows player.begun :=
  ⟨rfl, rfl, rfl, Nat.le_succ _⟩

lemma moved (player : Player α) : player.Grows player.moved :=
  ⟨rfl, rfl, rfl, le_rfl⟩

lemma armed (player : Player α) (t : Nat) : player.Grows { player with timer := some t } :=
  ⟨rfl, rfl, rfl, le_rfl⟩

end Player.Grows

namespace Later

section

omit [Scalar α]

variable {s s' s'' : Stage α}

lemma refl (s : Stage α) : Later s s :=
  ⟨List.prefix_rfl, fun hp => ⟨_, hp, .refl _⟩, fun ht => ⟨_, ht, rfl, rfl⟩⟩

lemma trans (h : Later s s') (h' : Later s' s'') : Later s s'' := by
  refine ⟨h.log.trans h'.log, fun hp => ?_, fun ht => ?_⟩
  · obtain ⟨player', hp', hgrows⟩ := h.players hp
    obtain ⟨player'', hp'', hgrows'⟩ := h'.players hp'
    exact ⟨player'', hp'', hgrows'.name.trans hgrows.name, hgrows'.timeline.trans hgrows.timeline,
      hgrows'.tag.trans hgrows.tag, hgrows.generation.trans hgrows'.generation⟩
  · obtain ⟨timer', ht', hplayer, hgen⟩ := h.timers ht
    obtain ⟨timer'', ht'', hplayer', hgen'⟩ := h'.timers ht'
    exact ⟨timer'', ht'', hplayer'.trans hplayer, hgen'.trans hgen⟩

/-- A change of one player takes nothing back if the player stays what it is. -/
lemma players_of_set {p : Nat} {player player' : Player α} (hp : s.players[p]? = some player)
    (hgrows : player.Grows player') {q : Nat} {other : Player α}
    (hq : s.players[q]? = some other) :
    ∃ other', (s.players.set p player')[q]? = some other' ∧ other.Grows other' := by
  by_cases hpq : p = q
  · subst hpq
    rw [hp, Option.some.injEq] at hq
    exact ⟨player', Stage.getElem?_set_player hp player', hq ▸ hgrows⟩
  · exact ⟨other, by rw [List.getElem?_set_ne hpq, hq], .refl other⟩

lemma timers_of_fired {t : Nat} {timer : Timer α} (ht : s.timers[t]? = some timer) {t' : Nat}
    {other : Timer α} (ht' : s.timers[t']? = some other) :
    ∃ other', (s.withFired t timer).timers[t']? = some other' ∧ other'.player = other.player ∧
      other'.generation = other.generation := by
  obtain ⟨hlen, -⟩ := List.getElem?_eq_some_iff.mp ht
  by_cases htt : t = t'
  · subst htt
    rw [ht, Option.some.injEq] at ht'
    subst ht'
    exact ⟨_, List.getElem?_set_self hlen, rfl, rfl⟩
  · exact ⟨other, by simp only [Stage.withFired]; rw [List.getElem?_set_ne htt, ht'], rfl, rfl⟩

lemma stopPlayer (s : Stage α) (p : Nat) : Later s (s.stopPlayer p) := by
  cases hp : s.players[p]? with
  | none =>
    rw [Stage.stopPlayer, hp]
    exact .refl s
  | some player =>
    rw [Stage.stopPlayer, hp]
    -- calling a timer off changes only its state
    refine ⟨List.prefix_append _ _, players_of_set hp (.halted player),
      fun {t timer} ht => ?_⟩
    rw [Player.getElem?_callOff, ht]
    split
    · exact ⟨_, rfl, timer.calledOff_player, timer.calledOff_generation⟩
    · exact ⟨_, rfl, rfl, rfl⟩

end

end Later

/-- No move takes anything back. -/
theorem Move.later {asked : Action → Prop} {m m' : Scene α} (hmove : Move asked m m') :
    Later m.stage m'.stage := by
  cases hmove with
  | stopped turns s p => exact .stopPlayer s p
  | @begun turns s p player segment hp hrun hseg =>
    exact ⟨List.prefix_append _ _, Later.players_of_set hp (.begun player),
      fun ht => ⟨_, ht, rfl, rfl⟩⟩
  | @moved s t timer player segment ht hstate hp hrun hgen hseg =>
    exact ⟨List.prefix_append _ _, Later.players_of_set hp (.moved player),
      Later.timers_of_fired ht⟩
  | @late turns s t timer ht hcurrent =>
    exact ⟨List.prefix_rfl, fun hp => ⟨_, hp, .refl _⟩, Later.timers_of_fired ht⟩
  | @armed turns s turn player hp hrun hgen =>
    refine ⟨List.prefix_append _ _, Later.players_of_set hp (.armed player _),
      fun {t timer} ht => ⟨timer, ?_, rfl, rfl⟩⟩
    obtain ⟨hlen, -⟩ := List.getElem?_eq_some_iff.mp ht
    simp only [Stage.armedFor]
    rw [List.getElem?_append_left hlen, ht]
  | left turns _ => exact .refl _
  | noted turns s _ _ =>
    exact ⟨List.prefix_append _ _, fun hp => ⟨_, hp, .refl _⟩, fun ht => ⟨_, ht, rfl, rfl⟩⟩
  | ticked turns s clock =>
    exact ⟨List.prefix_rfl, fun hp => ⟨_, hp, .refl _⟩, fun ht => ⟨_, ht, rfl, rfl⟩⟩
  | @added turns s player hfresh hasked =>
    refine ⟨List.prefix_rfl, fun {p other} hp => ⟨other, ?_, .refl _⟩,
      fun ht => ⟨_, ht, rfl, rfl⟩⟩
    obtain ⟨hlen, -⟩ := List.getElem?_eq_some_iff.mp hp
    rw [List.getElem?_append_left hlen, hp]
  | relit turns s lights =>
    exact ⟨List.prefix_rfl, fun hp => ⟨_, hp, .refl _⟩, fun ht => ⟨_, ht, rfl, rfl⟩⟩

/-- No run takes anything back. -/
theorem Path.later {asked : Action → Prop} {m m' : Scene α} (hpath : Path asked m m') :
    Later m.stage m'.stage := by
  induction hpath with
  | refl => exact .refl _
  | tail _ hmove ih => exact ih.trans hmove.later

end Seamark
