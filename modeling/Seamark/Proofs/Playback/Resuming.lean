import Seamark.Proofs.Playback.Halting

/-!
# A player that is started again

A player that rests and is started again behaves like one that was just made for the same listener.
The two stages differ by what the old one already has: its timers, which are all done, and its log.
So the new timers of the old player have later numbers, and later generations, as the player has
already counted some starts and stops (`Resumes`).  Every change of the one stage is the same change
of the other, and so is every run.
-/

namespace Seamark

variable {α : Type}

/-- A timer that was armed some generations later. -/
def Timer.later (g : Nat) (timer : Timer α) : Timer α :=
  { timer with generation := timer.generation + g }

/-- An event of timers whose numbers go on from a number. -/
def Event.renumbered (n : Nat) : Event α → Event α
  | .armed t interval => .armed (t + n) interval
  | .cancelled t => .cancelled (t + n)
  | event => event

namespace Player

/-- A player some generations later, when timers go on from a number. -/
def later (n g : Nat) (player : Player α) : Player α :=
  { player with
    generation := player.generation + g
    timer := player.timer.map (· + n) }

lemma halted_later (n g index : Nat) (player : Player α) :
    ({ player.later n g with index := index } : Player α).halted =
      { player.halted.later n g with index := index } := by
  simp only [halted, later, Nat.add_right_comm, Option.map_none]
  rfl

lemma begun_later (n g index : Nat) (player : Player α) :
    ({ player.later n g with index := index } : Player α).begun = player.begun.later n g := by
  simp only [begun, later, Nat.add_right_comm]

/-- The player made anew, for a listener that goes on counting its calls. -/
def remade (player : Player α) : Player α :=
  { player with running := false, index := 0, generation := 0, timer := none }

/-- A player that does not run and remembers no timer is itself, made anew, some generations
later. -/
lemma later_remade {player : Player α} (hrun : player.running = false)
    (htimer : player.timer = none) (n : Nat) :
    { player.remade.later n player.generation with index := player.index } = player := by
  cases player
  simp_all [later, remade]

end Player

namespace Stage

/-- The stage made anew, with a player that was never started. -/
def remade (s : Stage α) : Stage α where
  clock := s.clock
  players := s.players.map Player.remade

/-- A stage goes on from an old one as another stage goes on from nothing: it has the timers and the
events of the old one, then those of the other one under later numbers and generations, and the
player of the other one, which shows the same segment if it runs. -/
structure Resumes (old : Stage α) (g : Nat) (f s : Stage α) : Prop where
  /-- It is the same time. -/
  clock : s.clock = f.clock
  /-- The timers of the other stage follow the old ones. -/
  timers : s.timers = old.timers ++ f.timers.map (Timer.later g)
  /-- The events of the other stage follow the old ones. -/
  log : s.log = old.log ++
    f.log.map fun entry => ⟨entry.time, entry.event.renumbered old.timers.length⟩
  /-- There is one player, that of the other stage. -/
  one : ∃ player index, f.players = [player] ∧
    s.players = [{ player.later old.timers.length g with index := index }] ∧
    (player.running = true → index = player.index)

/-- Two ends of a playback, of which one goes on from an old stage as the other one from nothing:
both come through, or both are left by the same fault. -/
def ResumesBy (old : Stage α) (g : Nat) :
    EStateM.Result Fault (Stage α) Unit → EStateM.Result Fault (Stage α) Unit → Prop
  | .ok _ f, .ok _ s => Resumes old g f s
  | .error fault f, .error fault' s => fault' = fault ∧ Resumes old g f s
  | _, _ => False

/-! ### Changes of a stage -/

section

variable {old f s : Stage α} {g t : Nat} {timer : Timer α} {w : Wiring α}

lemma resumesBy_ending (fault? : Option Fault) (h : Resumes old g f s) :
    ResumesBy old g (Playback.ending fault? f) (Playback.ending fault? s) := by
  cases fault? with
  | none => exact h
  | some fault => exact ⟨rfl, h⟩

namespace Resumes

lemma getElem?_timers (h : Resumes old g f s) (t : Nat) :
    s.timers[t + old.timers.length]? = f.timers[t]?.map (Timer.later g) := by
  rw [h.timers, List.getElem?_append_right (by omega), Nat.add_sub_cancel, List.getElem?_map]

/-- The player calls off its timer. -/
lemma callOff (h : Resumes old g f s) (player : Player α) (index : Nat) :
    ({ player.later old.timers.length g with index := index } : Player α).callOff s.timers =
      old.timers ++ (player.callOff f.timers).map (Timer.later g) := by
  have hoff : ∀ timer : Timer α, (timer.later g).calledOff = timer.calledOff.later g := by
    intro timer
    unfold Timer.calledOff Timer.later
    split <;> rfl
  refine List.ext_getElem? fun i => ?_
  rw [Player.getElem?_callOff, h.timers]
  by_cases hold : i < old.timers.length
  · -- an old timer is not the one that the player remembers
    rw [if_neg, List.getElem?_append_left hold, List.getElem?_append_left hold]
    simp only [Player.later, Option.map_eq_some_iff, not_exists, not_and]
    omega
  · obtain ⟨t, rfl⟩ := Nat.exists_eq_add_of_le (not_lt.mp hold)
    simp only [List.getElem?_append_right (Nat.le_add_right _ t), Nat.add_sub_cancel_left,
      List.getElem?_map, Player.getElem?_callOff]
    have hsame : player.timer.map (· + old.timers.length) = some (old.timers.length + t) ↔
        player.timer = some t := by
      cases player.timer <;> simp [Nat.add_comm]
    simp only [Player.later, hsame]
    split
    · simp [Function.comp_def, hoff]
    · rfl

/-- The player says that it was stopped. -/
lemma partingsOf (h : Resumes old g f s) (w : Wiring α) (depth : Nat) (player : Player α)
    (index : Nat) :
    s.partingsOf w depth { player.later old.timers.length g with index := index } =
      (f.partingsOf w depth player).map (Event.renumbered old.timers.length) := by
  have hreset : resetFault? w depth
      ({ player.later old.timers.length g with index := index } : Player α) =
      resetFault? w depth player := rfl
  have hstate : ∀ t : Nat, s.timers[t + old.timers.length]?.map (·.state) =
      f.timers[t]?.map (·.state) := by
    intro t
    rw [h.getElem?_timers, Option.map_map]
    rfl
  unfold Stage.partingsOf partings
  rw [hreset]
  cases ht : player.timer with
  | none =>
    simp only [Player.later, ht, Option.map_none, List.nil_append, List.map_append]
    congr 1 <;> split <;> rfl
  | some t =>
    simp only [Player.later, ht, Option.map_some, hstate, List.map_append]
    congr 1
    · congr 1 <;> split <;> rfl
    · split <;> rfl

/-- The player is stopped. -/
lemma stopped (h : Resumes old g f s) (w : Wiring α) (depth : Nat) :
    Resumes old g (f.stopped w depth 0) (s.stopped w depth 0) := by
  obtain ⟨player, index, hf, hs, -⟩ := h.one
  rw [stopped_of_some (getElem?_zero hf), stopped_of_some (getElem?_zero hs)]
  refine ⟨h.clock, h.callOff player index, ?_, player.halted, index, by simp [hf], ?_, ?_⟩
  · simp only [h.partingsOf w depth player index, h.log, h.clock, List.map_append, List.map_map,
      List.append_assoc]
    rfl
  · simp only [hs, List.set_cons_zero, Player.halted_later]
  · simp [Player.halted]

/-- An event is noted that is not about a timer. -/
lemma noted (h : Resumes old g f s) {event : Event α}
    (hevent : event.renumbered old.timers.length = event) :
    Resumes old g (f.noted event) (s.noted event) :=
  ⟨h.clock, h.timers, by simp [Stage.noted, h.log, h.clock, hevent], h.one⟩

lemma at_clock (h : Resumes old g f s) (clock : α) :
    Resumes old g { f with clock := clock } { s with clock := clock } :=
  ⟨rfl, h.timers, h.log, h.one⟩

/-- A timer runs. -/
lemma withFired (h : Resumes old g f s) (t : Nat) (timer : Timer α) :
    Resumes old g (f.withFired t timer)
      (s.withFired (t + old.timers.length) (timer.later g)) := by
  refine ⟨h.clock, ?_, h.log, h.one⟩
  simp only [Stage.withFired, h.timers]
  rw [List.set_append_right _ _ (by omega), Nat.add_sub_cancel, List.map_set]
  rfl

/-- The stopped player starts. -/
lemma beginTurn [Scalar α] (h : Resumes old g f s) {player : Player α} {index : Nat}
    (hf : f.players = [player])
    (hs : s.players = [{ player.later old.timers.length g with index := index }])
    (segment : Segment α) :
    Resumes old g (f.beginTurn 0 player segment)
      (s.beginTurn 0 { player.later old.timers.length g with index := index } segment) := by
  refine ⟨h.clock, h.timers, ?_, player.begun, 0, by simp [Stage.beginTurn, hf], ?_, fun _ => rfl⟩
  · simp [Stage.beginTurn, h.log, h.clock, Event.renumbered, announcement, Player.later]
  · simp only [Stage.beginTurn, hs, List.set_cons_zero, Player.begun_later]
    rfl

/-- The running player moves on. -/
lemma nextTurn [Scalar α] (h : Resumes old g f s) {player : Player α} (hf : f.players = [player])
    (hs : s.players = [player.later old.timers.length g]) (segment : Segment α) :
    Resumes old g (f.nextTurn 0 player segment)
      (s.nextTurn 0 (player.later old.timers.length g) segment) := by
  refine ⟨h.clock, h.timers, ?_, player.moved, player.nextIndex, by simp [Stage.nextTurn, hf], ?_,
    fun _ => rfl⟩
  · simp [Stage.nextTurn, h.log, h.clock, Event.renumbered, announcement, Player.later,
      Player.nextIndex]
  · simp [Stage.nextTurn, hs, Player.moved, Player.later, Player.nextIndex]

/-- A timer is armed for the running player. -/
lemma armedFor [Scalar α] (h : Resumes old g f s) {player : Player α} (hf : f.players = [player])
    (hs : s.players = [player.later old.timers.length g]) (generation : Nat)
    (segment : Segment α) :
    Resumes old g (f.armedFor ⟨0, generation, segment⟩ player)
      (s.armedFor ⟨0, generation + g, segment⟩ (player.later old.timers.length g)) := by
  have hlength : s.timers.length = f.timers.length + old.timers.length := by
    rw [h.timers, List.length_append, List.length_map, Nat.add_comm]
  refine ⟨h.clock, ?_, ?_, { player with timer := some f.timers.length }, player.index,
    by simp [Stage.armedFor, hf], ?_, fun _ => rfl⟩
  · simp [Stage.armedFor, h.timers, h.clock, Timer.later]
  · simp [Stage.armedFor, h.log, h.clock, hlength, Event.renumbered]
  · simp [Stage.armedFor, hs, hlength, Player.later]

/-- A turn ends in which the player still is. -/
lemma closed [Scalar α] (h : Resumes old g f s) {player : Player α} (hf : f.players = [player])
    (hs : s.players = [player.later old.timers.length g]) (depth generation : Nat)
    (segment : Segment α) (fault? : Option Fault) :
    ResumesBy old g (Stage.closed w depth ⟨0, generation, segment⟩ player fault? f)
      (Stage.closed w depth ⟨0, generation + g, segment⟩ (player.later old.timers.length g)
        fault? s) := by
  cases fault? with
  | none => exact h.armedFor hf hs generation segment
  | some fault => exact ⟨rfl, h.stopped w depth⟩

end Resumes

/-! ### Calls and runs -/

variable [Scalar α] (hw : w.OnlyFails)

include hw in
lemma resumesBy_stop (h : Resumes old g f s) (depth : Nat) :
    ResumesBy old g (Player.stop w (react w depth) 0 f) (Player.stop w (react w depth) 0 s) := by
  obtain ⟨player, index, hf, hs, -⟩ := h.one
  rw [Player.stop_eq_ending hw depth (getElem?_zero hf),
    Player.stop_eq_ending hw depth (getElem?_zero hs)]
  exact resumesBy_ending _ (h.stopped w depth)

include hw in
lemma resumesBy_start (h : Resumes old g f s) (depth : Nat) :
    ResumesBy old g (Player.start w (react w depth) 0 f) (Player.start w (react w depth) 0 s) := by
  obtain ⟨player, index, hf, hs, -⟩ := h.one
  have hpf := getElem?_zero hf
  have hps := getElem?_zero hs
  have hstopped := h.stopped w depth
  cases hseg : player.timeline[0]? with
  | none =>
    have hempty : player.timeline = [] := by simpa using hseg
    rw [Player.start_eq_ending_of_empty hw depth hpf hempty,
      Player.start_eq_ending_of_empty hw depth hps hempty]
    exact resumesBy_ending _ hstopped
  | some segment =>
    cases hreset : resetFault? w depth player with
    | some fault =>
      rw [Player.start_of_resetFault hw depth hpf hreset,
        Player.start_of_resetFault hw depth hps hreset]
      exact ⟨rfl, hstopped⟩
    | none =>
      rw [Player.start_eq_closed hw depth hpf hseg hreset,
        Player.start_eq_closed hw depth hps hseg hreset]
      have hf' := stopped_players_of_one hf w depth
      have hs' := stopped_players_of_one hs w depth
      rw [Player.halted_later] at hs' ⊢
      have hbegun := hstopped.beginTurn hf' hs' segment
      rw [Player.begun_later]
      -- the starts count the generations on from different numbers
      have hgen : (player.later old.timers.length g).generation + 2 = player.generation + 2 + g :=
        Nat.add_right_comm _ _ _
      rw [hgen]
      refine hbegun.closed ?_ ?_ depth _ segment _
      · simp only [beginTurn, hf', List.set_cons_zero]
      · simp only [beginTurn, hs', List.set_cons_zero, Player.begun_later]

/-- The choice among timers that are due does not depend on what was before. -/
lemma foldl_later (n g : Nat) (entries : List (Timer α × Nat)) (best : Option (Timer α × Nat)) :
    (entries.map fun entry => (entry.1.later g, entry.2 + n)).foldl (fun best entry =>
      match best with
      | none => some entry
      | some b => if comesBefore entry b then some entry else some b)
      (best.map fun entry => (entry.1.later g, entry.2 + n)) =
    (entries.foldl (fun best entry => match best with
      | none => some entry
      | some b => if comesBefore entry b then some entry else some b) best).map
      fun entry => (entry.1.later g, entry.2 + n) := by
  have hbefore : ∀ a b : Timer α × Nat,
      comesBefore (a.1.later g, a.2 + n) (b.1.later g, b.2 + n) = comesBefore a b := by
    intro a b
    simp only [comesBefore, Nat.add_lt_add_iff_right]
    rfl
  induction entries generalizing best with
  | nil => rfl
  | cons entry entries ih =>
    simp only [List.map_cons, List.foldl_cons, ← ih]
    congr 1
    cases best with
    | none => rfl
    | some b =>
      simp only [Option.map_some, hbefore]
      split <;> rfl

/-- The first timer to run is the same one. -/
lemma nextDue?_later (h : Resumes old g f s)
    (hold : ∀ timer ∈ old.timers, timer.state ≠ .pending) (target : α) :
    nextDue? target s.timers = (nextDue? target f.timers).map fun entry =>
      (entry.1.later g, entry.2 + old.timers.length) := by
  have hnone : (old.timers.zipIdx.filter fun entry =>
      entry.1.state = .pending && entry.1.due ≤ target) = [] := by
    rw [List.filter_eq_nil_iff]
    intro entry hentry
    simp [hold _ (List.fst_mem_of_mem_zipIdx hentry)]
  have hzip : (f.timers.map (Timer.later g)).zipIdx old.timers.length =
      f.timers.zipIdx.map fun entry => (entry.1.later g, entry.2 + old.timers.length) := by
    rw [List.zipIdx_map, List.zipIdx_eq_map_add]
    simp [Nat.add_comm]
  unfold nextDue?
  rw [h.timers, List.zipIdx_append, List.filter_append, hnone, List.nil_append, Nat.zero_add, hzip,
    List.filter_map]
  exact foldl_later old.timers.length g _ none

omit [Scalar α] in
/-- A call that is run to its end, where a fault is noted. -/
lemma Resumes.noting {m m' : Playback α Unit} {f' s' : Stage α}
    (h : ResumesBy old g (m f') (m' s')) :
    Resumes old g (Playback.stageOf (Stage.noting m f'))
      (Playback.stageOf (Stage.noting m' s')) := by
  simp only [Stage.noting, Playback.tryCatch_apply]
  cases hm : m f' with
  | ok _ f =>
    cases hm' : m' s' with
    | ok _ s =>
      rw [hm, hm'] at h
      exact h
    | error fault s =>
      rw [hm, hm'] at h
      exact h.elim
  | error fault f =>
    cases hm' : m' s' with
    | ok _ s =>
      rw [hm, hm'] at h
      exact h.elim
    | error fault' s =>
      rw [hm, hm'] at h
      obtain ⟨rfl, hresumes⟩ := h
      exact hresumes.noted rfl

include hw

/-- A timer that moves the player on. -/
lemma resumesBy_advance (h : Resumes old g f s) (hsound : Sound ⟨[], f⟩)
    (ht : f.timers[t]? = some timer) (depth : Nat) :
    ResumesBy old g
      (Player.advance w (react w depth) timer.player timer.generation (f.withFired t timer))
      (Player.advance w (react w depth) (timer.later g).player (timer.later g).generation
        (s.withFired (t + old.timers.length) (timer.later g))) := by
  obtain ⟨player, index, hf, hs, hshown⟩ := h.one
  have hfired := h.withFired t timer
  change ResumesBy old g _ (Player.advance w (react w depth) timer.player
    (timer.generation + g) (s.withFired (t + old.timers.length) (timer.later g)))
  rw [player_eq_zero hsound hf ht]
  by_cases hcurrent : player.running = true ∧ player.generation = timer.generation
  · obtain ⟨hrun, hgen⟩ := hcurrent
    obtain rfl := hshown hrun
    obtain ⟨segment, hseg⟩ := hsound.exists_next (getElem?_zero hf) hrun
    have hf' := Player.advance_eq_closed (s := f.withFired t timer) hw depth (getElem?_zero hf) hrun
      hseg
    have hps : (s.withFired (t + old.timers.length) (timer.later g)).players[0]? =
        some (player.later old.timers.length g) := getElem?_zero hs
    have hs' := Player.advance_eq_closed hw depth hps hrun hseg
    have hmoved := hfired.nextTurn hf hs segment
    rw [hgen] at hf'
    rw [show (player.later old.timers.length g).generation = timer.generation + g from
      congrArg (· + g) hgen] at hs'
    rw [hf', hs']
    exact hmoved.closed (by simp [Stage.nextTurn, Stage.withFired, hf])
      (by simp only [Stage.nextTurn, Stage.withFired, hs, List.set_cons_zero]; rfl) depth _ _ _
  · -- the player is in another generation on both stages
    have hf' : ¬ (f.withFired t timer).IsCurrent 0 timer.generation := by
      rintro ⟨other, hother, hstill⟩
      obtain rfl : player = other := by simpa [Stage.withFired, hf] using hother
      exact hcurrent hstill
    have hs' : ¬ (s.withFired (t + old.timers.length) (timer.later g)).IsCurrent 0
        (timer.generation + g) := by
      rintro ⟨other, hother, hrun, hgen⟩
      obtain rfl : { player.later old.timers.length g with index := index } = other := by
        simpa [Stage.withFired, hs] using hother
      exact hcurrent ⟨hrun, Nat.add_right_cancel hgen⟩
    rw [Player.advance_of_not_current hf', Player.advance_of_not_current hs']
    exact hfired

/-- The timers run that are due. -/
lemma Resumes.runDue (h : Resumes old g f s) (hsound : Sound ⟨[], f⟩)
    (hold : ∀ timer ∈ old.timers, timer.state ≠ .pending) (depth : Nat) (target : α)
    (firings : Nat) :
    Resumes old g (Playback.stageOf (Stage.runDue w depth target firings f))
      (Playback.stageOf (Stage.runDue w depth target firings s)) := by
  induction firings generalizing f s with
  | zero => exact h
  | succ firings ih =>
    have hsame := nextDue?_later h hold target
    cases hnext : nextDue? target f.timers with
    | none =>
      rw [hnext] at hsame
      rwa [runDue_of_none hnext, runDue_of_none hsame]
    | some entry =>
      rw [hnext] at hsame
      obtain ⟨ht, hpending, -⟩ := nextDue?_eq_some hnext
      have hticked : Sound ⟨[], { f with clock := greater f.clock entry.1.due }⟩ :=
        hsound.congr rfl rfl
      have hat := h.at_clock (greater f.clock entry.1.due)
      rw [runDue_of_some hnext, runDue_of_some hsame]
      refine ih ?_ (sound_firedOne hw hticked ht (by simp [hpending]) depth)
      have hfired := Resumes.noting (resumesBy_advance hw hat hticked ht depth)
      rw [h.clock]
      exact hfired

/-- The same is done to both stages. -/
lemma Resumes.after (h : Resumes old g f s) (hsound : Sound ⟨[], f⟩)
    (hold : ∀ timer ∈ old.timers, timer.state ≠ .pending) (limits : Limits)
    {operation : Operation α} (hplaying : operation.IsPlaying) :
    Resumes old g (f.after w operation limits) (s.after w operation limits) := by
  cases operation with
  | advance time =>
    rw [after_advance, after_advance, h.clock]
    exact (h.runDue hw hsound hold limits.depth _ limits.firings).at_clock _
  | fire t => exact hplaying.elim
  | act action =>
    rw [after_eq_stageOf, after_eq_stageOf]
    cases action with
    | start => exact Resumes.noting (resumesBy_start hw h limits.depth)
    | stop => exact Resumes.noting (resumesBy_stop hw h limits.depth)
    | fail => exact hplaying.elim
    | startLight => exact hplaying.elim
    | stopLight => exact hplaying.elim
    | stopAll => exact hplaying.elim

/-- Every run goes on from the old stage as it does from nothing. -/
lemma Resumes.run (h : Resumes old g f s) (hsound : Sound ⟨[], f⟩)
    (hold : ∀ timer ∈ old.timers, timer.state ≠ .pending) (limits : Limits)
    {operations : List (Operation α)} (hplaying : ∀ operation ∈ operations, operation.IsPlaying) :
    Resumes old g (f.run w limits operations) (s.run w limits operations) := by
  induction operations generalizing f s with
  | nil => exact h
  | cons operation operations ih =>
    exact ih (h.after hw hsound hold limits (hplaying operation (by simp)))
      (sound_after hw hsound limits operation) fun other hother => hplaying other (by simp [hother])

end

/-! ### The next start -/

section

variable {s : Stage α} {kind player : Player α} {log : List (Entry α)}

lemma Rests.done (h : Rests kind log s) : ∀ timer ∈ s.timers, timer.state ≠ .pending := by
  intro timer htimer hpending
  obtain ⟨t, ht⟩ := List.getElem?_of_mem htimer
  have hmem := mem_pendingTimers_iff.mpr ⟨timer, ht, hpending⟩
  simp [h.idle] at hmem

/-- A player that rests is as good as made anew. -/
lemma Rests.resumes (h : Rests kind log s) (hone : s.players = [player]) :
    Resumes s player.generation s.remade s := by
  obtain ⟨other, hother, -, hrun, htimer⟩ := h.one
  obtain rfl : player = other := by simpa [hone] using hother
  refine ⟨rfl, by simp [remade], by simp [remade], player.remade, player.index,
    by simp [remade, hone], ?_, by simp [Player.remade]⟩
  rw [hone, Player.later_remade hrun htimer]

/-- A stage made anew is sound. -/
lemma sound_remade (s : Stage α) : Sound ⟨[], s.remade⟩ where
  owner ht := by simp [remade] at ht
  turnOwner hturn := by simp at hturn
  distinct := .nil
  player {p player} hp := by
    obtain ⟨old, -, rfl⟩ := List.mem_map.mp (List.mem_of_getElem? hp)
    exact .fresh ⟨rfl, rfl, rfl⟩ (fun ht => by simp [remade] at ht) (fun hturn => by simp at hturn)

end

variable [Scalar α]

/-- When the player of a stage is started next, it announces its first segment, unless its listener
fails at the reset before, and from then on everything goes as for a player made anew for the same
listener. -/
structure StartsAnew (w : Wiring α) (limits : Limits) (s : Stage α) (player : Player α) : Prop where
  /-- The player is the only one. -/
  one : s.players = [player]
  /-- The start announces the first segment and no other one. -/
  first : resetFault? w limits.depth player = none → ∃ before segment after,
    player.timeline[0]? = some segment ∧ Silent before ∧ Silent after ∧
      (s.after w (.act .start) limits).log = s.log ++ before ++
        ⟨s.clock, .stepped player.tag 0 segment.color segment.level⟩ :: after
  /-- What is done from the start on is done to the one player as to the other. -/
  resumes : ∀ rest : List (Operation α), (∀ operation ∈ rest, operation.IsPlaying) →
    Resumes s player.generation (s.remade.run w limits (.act .start :: rest))
      (s.run w limits (.act .start :: rest))

section

variable {w : Wiring α} {limits : Limits} {s : Stage α} {kind player : Player α}
  {log : List (Entry α)}

lemma Rests.startsAnew (hw : w.OnlyFails) (h : Rests kind log s) (hne : kind.timeline ≠ [])
    (limits : Limits) : ∃ player, player.kind = kind ∧ StartsAnew w limits s player := by
  obtain ⟨player, hone, rfl, -⟩ := h.one
  refine ⟨player, rfl, hone, fun hreset => ?_, fun rest hrest => ?_⟩
  · obtain ⟨segment, hseg⟩ : ∃ segment, player.timeline[0]? = some segment :=
      ⟨_, List.getElem?_eq_getElem (List.length_pos_of_ne_nil hne)⟩
    have hopens := opens_start hw hone hseg hreset
    obtain ⟨before, after, hbefore, hafter, hlog⟩ := hopens.log_eq
    obtain ⟨noted, hnoted, hend⟩ := log_noting (Player.start w (react w limits.depth) 0) s
    have hstart : s.after w (.act .start) limits =
        Playback.stageOf (noting (Player.start w (react w limits.depth) 0) s) :=
      after_eq_stageOf w limits s _
    refine ⟨before, segment, after ++ noted, hseg, hbefore, hafter.append hnoted, ?_⟩
    rw [hstart, hend, hlog, List.append_assoc]
    simp [beginTurn, Player.begun, Player.halted]
  · exact (h.resumes hone).run hw (sound_remade s) h.done limits
      (List.forall_mem_cons.mpr ⟨trivial, hrest⟩)

end

/-! ### Every run of a player whose listener fails -/

/-- **A listener that fails stops its player for good, and the next start is as good as the first
one.** One player is started and stopped and time passes, while its listeners may fail at any call
but never call back.  Every segment that an operation announces is announced in one of its calls, a
start or a timer that runs.  If the listener fails at this announcement, a fault leaves the call,
which is the listener's unless the reset fails with one of its own; the player is then stopped at
the segment, nothing is pending, and since the announcement one reset was announced and no segment.
The operation ends there, the player rests until it is started again, and then it goes on as if it
was made anew. -/
theorem solo_run_quits (w : Wiring α) (hw : w.OnlyFails) (limits : Limits) (clock : α)
    (name : String) (timeline : Timeline α) (hne : timeline ≠ []) (tag : String)
    (hearsReset : Bool) (operations : List (Operation α))
    (hplaying : ∀ operation ∈ operations, operation.IsPlaying) :
    let kind : Player α :=
      { name := name, timeline := timeline, tag := tag, hearsReset := hearsReset }
    let s := (solo clock name timeline tag hearsReset).run w limits operations
    ∀ operation : Operation α, operation.IsPlaying → ∀ n entry, s.log.length ≤ n →
      (s.after w operation limits).log[n]? = some entry → entry.event.isStep = true →
      ∃ call s₀ player index segment, Makes w limits s operation call s₀ ∧
        Announces call s₀ n entry ∧ s₀.players = [player] ∧ timeline[index]? = some segment ∧
        entry.event = .stepped tag index segment.color segment.level ∧
        ∀ fault, faultOf? limits.depth
            ((w.scriptOf tag).onStep (player.steps + 1) index segment) = some fault →
          ∃ fault' s', call s₀ = .error fault' s' ∧
            ((∀ call, (w.scriptOf tag).onReset call = []) → fault' = fault) ∧
            Quits kind index n s' ∧
            s.after w operation limits =
              { s'.noted (.raised fault') with clock := (s.after w operation limits).clock } ∧
            ∀ idle : List (Operation α), (∀ operation ∈ idle, operation.IsPlaying) →
              .act .start ∉ idle →
              Rests kind s'.log ((s.after w operation limits).run w limits idle) ∧
              ∃ player', player'.kind = kind ∧
                StartsAnew w limits ((s.after w operation limits).run w limits idle) player' := by
  intro kind s operation hoperation n entry hnew hentry hstep
  have hmade := sound_solo clock name timeline tag hearsReset
  have hsound : Sound ⟨[], s⟩ := sound_run hw hmade limits operations
  have hholds : s.HoldsOne kind := holdsOne_run hw hmade ⟨kind, rfl, rfl⟩ limits hplaying
  obtain ⟨call, s₀, hmakes, hannounces⟩ :=
    exists_makes hw hsound hholds hoperation hnew hstep hentry
  obtain ⟨s₁, player, segment, hopens, hkind, rfl⟩ :=
    (hmakes.isCall hw hsound hholds).opens hannounces
  obtain ⟨-, before, hbefore, -, hsteps⟩ := hopens.one
  have htag : player.tag = tag := congrArg Player.tag hkind
  have htimeline : player.timeline = timeline := congrArg Player.timeline hkind
  refine ⟨call, s₀, before, player.index, segment, hmakes, hannounces, hbefore,
    htimeline ▸ hopens.shown, by rw [htag], fun fault hfault => ?_⟩
  rw [← hsteps, ← htag] at hfault
  obtain ⟨hcall, hquits⟩ := hopens.quits (hmakes.sound hw hsound) hfault hannounces
  rw [hkind] at hquits
  have hafter := hmakes.after_eq hcall hquits.idle
  refine ⟨_, _, hcall, fun hquiet => ?_, hquits, hafter, fun idle hidle hstart => ?_⟩
  · have hreset : resetFault? w limits.depth player = none := by
      rw [resetFault?, htag, hquiet]
      split <;> rfl
    rw [hreset, Option.getD_none]
  · have hrests : Rests kind (s₁.stopped w limits.depth 0).log (s.after w operation limits) := by
      rw [hafter]
      exact (hquits.rests.raised _).at_clock _
    have hrun := hrests.run hw limits hidle hstart
    exact ⟨hrun, hrun.startsAnew hw hne limits⟩

/-- A listener that fails whenever it is told of the segment at index `2`. -/
def weary : Wiring Rat where
  scriptOf _ := { onStep := fun _ index _ =>
    if index = 2 then [.fail (.listener "tired")] else [] }
  timelineOf _ := .ok []

/-- Three segments of one second. -/
def triple : Timeline Rat := [⟨true, 1, "W", 1⟩, ⟨false, 1, "W", 1⟩, ⟨true, 1, "R", 1⟩]

/-- Two seconds after its start the listener fails while a timer runs; the player quits at index
`2`, and after a stop and some time it starts anew. -/
theorem weary_run_quits :
    ∃ call s₀ s', Makes weary {} ((solo 0 "buoy" triple "x" true).run weary {}
        [.act .start, .advance 1]) (.advance 5) call s₀ ∧
      call s₀ = .error (.listener "tired") s' ∧
      Quits { name := "buoy", timeline := triple, tag := "x", hearsReset := true } 2 6 s' ∧
      ∃ player, StartsAnew weary {} ((((solo 0 "buoy" triple "x" true).run weary {}
        [.act .start, .advance 1]).after weary (.advance 5) {}).run weary {}
        [.act .stop, .advance 3]) player := by
  have hfails : weary.OnlyFails := by
    refine ⟨fun tag call index segment action haction => ?_, fun tag call action haction => ?_⟩
    · simp only [weary] at haction
      split at haction
      · exact ⟨_, List.mem_singleton.mp haction⟩
      · simp at haction
    · simp [weary] at haction
  have hlength : ((solo 0 "buoy" triple "x" true).run weary {}
      [.act .start, .advance 1]).log.length ≤ 6 := by decide +kernel
  have hentry : (((solo 0 "buoy" triple "x" true).run weary {}
      [.act .start, .advance 1]).after weary (.advance 5) {}).log[6]? =
        some ⟨2, .stepped "x" 2 "R" 1⟩ := by decide +kernel
  obtain ⟨call, s₀, player, index, segment, hmakes, -, -, -, hevent, hquits⟩ :=
    solo_run_quits weary hfails {} 0 "buoy" triple (by simp [triple]) "x" true
      [.act .start, .advance 1] (by simp [Operation.IsPlaying]) (.advance 5) trivial 6 _ hlength
      hentry rfl
  obtain rfl : 2 = index := by
    simp only [Event.stepped.injEq] at hevent
    exact hevent.2.1
  obtain ⟨fault, s', hcall, hfault, hquit, -, hrest⟩ := hquits (.listener "tired") rfl
  obtain rfl := hfault fun _ => rfl
  obtain ⟨-, player', -, hanew⟩ :=
    hrest [.act .stop, .advance 3] (by simp [Operation.IsPlaying]) (by simp)
  exact ⟨call, s₀, s', hmakes, hcall, hquit, player', hanew⟩

end Stage

end Seamark
