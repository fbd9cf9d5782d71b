import Seamark.Proofs.Playback.Filed

/-!
# A start that fails

When a light is put on show and the listener of its new player fails at the first announcement, the
new player is stopped, and so is the one that it replaces; the players of other lights are left as
they were.  But the light is not taken off show again: it stays listed, with a player that does not
run (`LeavesListed`).  No player of the light runs then, unless one ran unlisted before.
-/

namespace Seamark

variable {α : Type}

namespace Stage

/-- A start of a light that failed: the light is listed with the player that was made for it, this
player and the one that it replaced are stopped and have no pending timer, and all other players and
their timers are what they were. -/
structure LeavesListed (light : String) (s s' : Stage α) : Prop where
  /-- The light is listed with the new player. -/
  lights : s'.lights = s.lights.set light s.players.length
  /-- One player was made. -/
  length : s'.players.length = s.players.length + 1
  /-- What the light showed and what it was to show is stopped. -/
  stopped : ∀ p, p = s.players.length ∨ s.lights.get? light = some p →
    ∃ player, s'.players[p]? = some player ∧ player.name = light ∧ player.running = false ∧
      ∀ t, ¬ s'.IsPendingOf p t
  /-- Nothing else changed. -/
  spared : ∀ p < s.players.length, s.lights.get? light ≠ some p → Spares p s s'

/-! ### Stopping a player among others -/

section

variable {turns : List (Turn α)} {s : Stage α} {p q : Nat}

@[simp] lemma length_stopPlayer (s : Stage α) (p : Nat) :
    (s.stopPlayer p).players.length = s.players.length := by
  unfold stopPlayer
  split <;> simp

/-- A player is stopped: another one and its timers are left alone. -/
lemma Spares.stopped (h : Sound ⟨turns, s⟩) (hqp : q ≠ p) (w : Wiring α) (depth : Nat) :
    Spares p s (s.stopped w depth q) := by
  obtain ⟨hplayer, htimers⟩ := Spares.stopPlayer (s := s) hqp fun hq ht =>
    (h.player hq).remembered ht
  exact ⟨by rw [stopped_players, hplayer], by rwa [stopped_timers]⟩

/-- Stopping a player tells of no segment. -/
lemma exists_log_stopped (w : Wiring α) (depth : Nat) (s : Stage α) (p : Nat) :
    ∃ new, Silent new ∧ (s.stopped w depth p).log = s.log ++ new := by
  cases hp : s.players[p]? with
  | none => exact ⟨[], silent_nil, by simp [stopped_of_none hp]⟩
  | some player => exact ⟨_, silent_partingsOf w depth s player s.clock, by rw [stopped_of_some hp]⟩

end

variable [Scalar α]

/-- The stage in which a new player announces its first segment, after it was listed in place of
another one. -/
def firstTurn (w : Wiring α) (depth : Nat) (s : Stage α) (light : String) (player : Player α)
    (segment : Segment α) : Stage α :=
  ((replacedBy w depth s light player).stopped w depth s.players.length).beginTurn
    s.players.length player.halted segment

/-! ### Replacing a player -/

section

variable {s : Stage α} {light : String} {player : Player α} {segment : Segment α}

omit [Scalar α] in
/-- Replacing a player tells of no segment. -/
lemma exists_log_replacedBy (w : Wiring α) (depth : Nat) (s : Stage α) (light : String)
    (player : Player α) : ∃ new, Silent new ∧
      (replacedBy w depth s light player).log = s.log ++ new := by
  cases hq : s.lights.get? light with
  | none =>
    rw [replacedBy_of_none hq]
    exact ⟨[], silent_nil, (List.append_nil _).symm⟩
  | some q =>
    rw [replacedBy_of_some hq]
    exact exists_log_stopped w depth _ q

omit [Scalar α] in
lemma length_replacedBy (w : Wiring α) (depth : Nat) (s : Stage α) (light : String)
    (player : Player α) :
    (replacedBy w depth s light player).players.length = s.players.length + 1 := by
  unfold replacedBy
  split <;> simp

variable (h : Sound ⟨[], s⟩) (hfresh : player.IsFresh)
include h hfresh

/-- A new player that is listed has no timers. -/
lemma sound_listed (light : String) :
    Sound ⟨[], { s with
      players := s.players ++ [player]
      lights := s.lights.set light s.players.length }⟩ := by
  have hadded : Sound ⟨[], { s with players := s.players ++ [player] }⟩ :=
    h.of_move (.added [] s hfresh ⟨light, none, player.tag, player.hearsReset, trivial⟩)
  exact hadded.congr rfl rfl

lemma sound_replacedBy (w : Wiring α) (depth : Nat) (light : String) :
    Sound ⟨[], replacedBy w depth s light player⟩ := by
  have hlisted := sound_listed h hfresh light
  cases hq : s.lights.get? light with
  | none => rwa [replacedBy_of_none hq]
  | some q =>
    rw [replacedBy_of_some hq]
    exact hlisted.stopped w depth q

/-- Players of other lights do not notice that one is replaced. -/
lemma Spares.replacedBy {p : Nat} (hp : p < s.players.length)
    (hother : s.lights.get? light ≠ some p) (w : Wiring α) (depth : Nat) :
    Spares p s (replacedBy w depth s light player) := by
  refine ⟨by rw [getElem?_replacedBy hother, List.getElem?_append_left hp], ?_⟩
  cases hq : s.lights.get? light with
  | none =>
    rw [replacedBy_of_none hq]
    exact .refl p s.timers
  | some q =>
    rw [replacedBy_of_some hq]
    have hqp : q ≠ p := fun hqp => hother (hqp ▸ hq)
    exact (Spares.stopped (sound_listed h hfresh light) hqp w depth).timers

lemma Spares.firstTurn {p : Nat} (hp : p < s.players.length)
    (hother : s.lights.get? light ≠ some p) (w : Wiring α) (depth : Nat) :
    Spares p s (firstTurn w depth s light player segment) := by
  have hne : s.players.length ≠ p := by omega
  have hreplaced := Spares.replacedBy h hfresh hp hother w depth
  have hstopped := Spares.stopped (sound_replacedBy h hfresh w depth light) hne w depth
  exact (hreplaced.trans hstopped).trans (.set_player hne rfl rfl)

variable {strict : Prop} (hfiled : Filed strict s)
include hfiled

/-- The turn of the new player is open. -/
lemma sound_firstTurn (hseg : player.timeline[0]? = some segment) (w : Wiring α) (depth : Nat)
    (light : String) : Sound ⟨[⟨s.players.length, player.generation + 2, segment⟩],
      firstTurn w depth s light player segment⟩ := by
  have hhalted := getElem?_stopped (hfiled.getElem?_new light w depth player) w depth
  have hstopped := (sound_replacedBy h hfresh w depth light).stopped w depth s.players.length
  exact hstopped.of_move (.begun [] hhalted rfl hseg)

end

/-! ### The new player fails -/

section

variable {strict : Prop} {s : Stage α} {light : String} {player : Player α} {segment : Segment α}

lemma Filed.getElem?_firstTurn (hfiled : Filed strict s) (light : String) (player : Player α)
    (segment : Segment α) (w : Wiring α) (depth : Nat) :
    (firstTurn w depth s light player segment).players[s.players.length]? =
      some player.halted.begun :=
  getElem?_set_player (getElem?_stopped (hfiled.getElem?_new light w depth player) w depth) _

/-- When the new player is stopped in its first turn, its light stays listed. -/
lemma leavesListed_stopped (h : Sound ⟨[], s⟩) (hfiled : Filed strict s) (hfresh : player.IsFresh)
    (hname : player.name = light) (hseg : player.timeline[0]? = some segment) (w : Wiring α)
    (depth : Nat) : LeavesListed light s
      ((firstTurn w depth s light player segment).stopped w depth s.players.length) := by
  have hbegun := hfiled.getElem?_firstTurn light player segment w depth
  have hopen := sound_firstTurn h hfresh hfiled hseg w depth light
  have hsound := hopen.closed hbegun rfl rfl w depth (some .tooDeep)
  refine ⟨by simp [firstTurn, beginTurn], by simp [firstTurn, beginTurn, length_replacedBy],
    fun p hp => ?_, fun p hp hother => ?_⟩
  · obtain ⟨player', hp', hname', hrun'⟩ : ∃ player',
        ((firstTurn w depth s light player segment).stopped w depth s.players.length).players[p]? =
          some player' ∧ player'.name = light ∧ player'.running = false := by
      rcases hp with rfl | hq
      · exact ⟨_, getElem?_stopped hbegun w depth, hname, rfl⟩
      · obtain ⟨old, hold, hlight⟩ := hfiled.named hq
        have hne : s.players.length ≠ p := fun hlen => hfiled.get?_ne_length light (hlen ▸ hq)
        refine ⟨old.halted, ?_, hlight, rfl⟩
        rw [stopped_players, Player.getElem?_stopPlayer_ne hne, firstTurn, beginTurn,
          List.getElem?_set_ne hne, stopped_players, Player.getElem?_stopPlayer_ne hne,
          getElem?_replacedBy_self hq hold]
    exact ⟨player', hp', hname', hrun', hsound.not_pending hp' hrun'⟩
  · have hne : s.players.length ≠ p := by omega
    exact (Spares.firstTurn h hfresh hp hother w depth).trans
      (Spares.stopped hopen hne w depth)

lemma after_startLight_error {w : Wiring α} {limits : Limits} {code : Option String} {tag : String}
    {hearsReset : Bool} {fault : Fault} {s' : Stage α}
    (hcall : Manager.startLight w (react w limits.depth) light code tag hearsReset s =
      .error fault s') :
    s.after w (.act (.startLight light code tag hearsReset)) limits =
      s'.noted (.raised fault) := by
  have hperform : perform w (limits.depth + 1) (some 0) (.startLight light code tag hearsReset) s =
      .error fault s' := by
    show (Manager.startLight w (react w limits.depth) light code tag hearsReset >>= fun shown =>
      note (.started light shown)) s = _
    rw [Playback.bind_apply, hcall]
  rw [after_eq_stageOf]
  simp [operate, noting, hperform, note_apply]

/-- What was announced when a light was put on show was announced in the first turn of its new
player.  If the listener fails then, so does the start. -/
lemma startLight_of_announces {w : Wiring α} (hw : w.OnlyFails) (hfiled : Filed strict s)
    {depth n : Nat} {code : Option String} {tag : String} {hearsReset : Bool} {ts : Timeline α}
    {fault : Fault} {entry : Entry α} (hts : w.timelineOf code = .ok ts)
    (hseg : ts[0]? = some segment)
    (hfault : faultOf? depth ((w.scriptOf tag).onStep 1 0 segment) = some fault)
    (hannounces : Announces (Manager.startLight w (react w depth) light code tag hearsReset)
      s n entry) : ∃ fault', ((∀ call, (w.scriptOf tag).onReset call = []) → fault' = fault) ∧
      Manager.startLight w (react w depth) light code tag hearsReset s = .error fault'
        ((firstTurn w depth s light (Manager.newPlayer light ts tag hearsReset) segment).stopped
          w depth s.players.length) := by
  have hnew := hfiled.getElem?_new light w depth (Manager.newPlayer light ts tag hearsReset)
  have hcall : Manager.startLight w (react w depth) light code tag hearsReset s =
      (do
        Manager.showTimeline w (react w depth) light ts tag hearsReset
        return true : Playback α Bool) s := by
    cases ts with
    | nil => simp at hseg
    | cons => simp only [Manager.startLight, hts]
  obtain ⟨before, hbefore, hreplaced⟩ :=
    exists_log_replacedBy w depth s light (Manager.newPlayer light ts tag hearsReset)
  rw [Playback.bind_apply, showTimeline_eq_start hw hfiled] at hcall
  cases hold : replacedFault? w depth s light with
  | some fault' =>
    rw [hold] at hcall
    refine absurd hbefore (hannounces.not_silent ?_)
    rw [hcall]
    exact hreplaced
  | none =>
    cases hreset : resetFault? w depth (Manager.newPlayer (α := α) light ts tag hearsReset) with
    | some fault' =>
      obtain ⟨between, hbetween, hstopped⟩ := exists_log_stopped w depth
        (replacedBy w depth s light (Manager.newPlayer light ts tag hearsReset)) s.players.length
      rw [hold, Player.start_of_resetFault hw depth hnew hreset] at hcall
      refine absurd (hbefore.append hbetween) (hannounces.not_silent ?_)
      rw [hcall, ← List.append_assoc, ← hreplaced]
      exact hstopped
    | none =>
      have hstep : stepFault? w depth (Manager.newPlayer (α := α) light ts tag hearsReset).halted 0
          segment = some fault := hfault
      rw [hold, Player.start_eq_closed hw depth hnew hseg hreset, hstep] at hcall
      refine ⟨_, fun hquiet => ?_, hcall⟩
      have hquiets : resetFault? w depth
          (Manager.newPlayer (α := α) light ts tag hearsReset).halted.begun = none := by
        rw [resetFault?]
        split
        · exact congrArg (faultOf? depth) (hquiet _)
        · rfl
      rw [hquiets, Option.getD_none]

/-- A light is put on show after any run, and the listener of its new player, which never calls
back, fails at the first announcement.  Then a fault leaves the start, which is the listener's
unless the reset fails with one of its own.  The light stays listed, with a stopped player, the
player that it replaced is stopped, and other lights keep their players and timers.  No player of
the light runs any more, unless the resets may fail and all lights were taken off show before. -/
theorem run_failedStart (w : Wiring α) (hw : w.OnlyFails) (limits : Limits) (clock : α)
    (operations : List (Operation α))
    (hlighting : ∀ operation ∈ operations, operation.Asks Action.IsLighting)
    (light : String) (code : Option String) (tag : String) (hearsReset : Bool) (ts : Timeline α)
    (hts : w.timelineOf code = .ok ts) (segment : Segment α) (hseg : ts[0]? = some segment)
    (fault : Fault)
    (hfault : faultOf? limits.depth ((w.scriptOf tag).onStep 1 0 segment) = some fault) :
    let s := ({ clock := clock } : Stage α).run w limits operations
    let call := Manager.startLight w (react w limits.depth) light code tag hearsReset
    ∀ n entry, Announces call s n entry →
      ∃ fault' s', call s = .error fault' s' ∧
        ((∀ call, (w.scriptOf tag).onReset call = []) → fault' = fault) ∧
        s.after w (.act (.startLight light code tag hearsReset)) limits =
          s'.noted (.raised fault') ∧
        LeavesListed light s s' ∧
        (∀ other, other ≠ light → s'.lights.get? other = s.lights.get? other ∧
          ∀ p, s.lights.get? other = some p → Spares p s s') ∧
        ((.act .stopAll ∈ operations → w.QuietResets) →
          ∀ p player, s'.players[p]? = some player → player.name = light →
            player.running = false ∧ ∀ t, ¬ s'.IsPendingOf p t) := by
  intro s call n entry hannounces
  have hsound : Sound ⟨[], s⟩ := sound_run hw (sound_empty clock) limits operations
  have hfiled : Filed (.act .stopAll ∈ operations → w.QuietResets) s :=
    filed_run hw (sound_empty clock) (filed_empty _ clock) limits hlighting fun hquiet => hquiet
  obtain ⟨fault', hquiet, hcall⟩ :=
    startLight_of_announces hw hfiled hts hseg hfault hannounces
  have hfresh : (Manager.newPlayer light ts tag hearsReset).IsFresh := ⟨rfl, rfl, rfl⟩
  have hnamed : (Manager.newPlayer light ts tag hearsReset).name = light := rfl
  have hleaves := leavesListed_stopped hsound hfiled hfresh hnamed hseg w limits.depth
  have hafter := after_startLight_error hcall
  refine ⟨fault', _, hcall, hquiet, hafter, hleaves, fun other hother => ⟨?_, fun p hp => ?_⟩,
    fun hstrict p player hp hname => ?_⟩
  · rw [hleaves.lights, Table.get?_set, if_neg hother]
  · obtain ⟨shown, hshown, hname⟩ := hfiled.named hp
    refine hleaves.spared p (List.getElem?_eq_some_iff.mp hshown).1 fun hlight => ?_
    obtain ⟨replaced, hreplaced, hname'⟩ := hfiled.named hlight
    rw [hshown, Option.some.injEq] at hreplaced
    exact hother (hname.symm.trans (hreplaced ▸ hname'))
  · -- if it ran, it would be the one that is listed, but that one was stopped
    have hkept : Filed (.act .stopAll ∈ operations → w.QuietResets)
        (s.after w (.act (.startLight light code tag hearsReset)) limits) :=
      filed_after hw hsound hfiled limits trivial fun _ => by simp
    rw [hafter] at hkept
    have hrun : player.running = false := by
      by_contra hrun
      have hlisted := hkept.listed hstrict hp (by simpa using hrun)
      rw [hname, show (Stage.noted _ _).lights = _ from hleaves.lights, Table.get?_set, if_pos rfl,
        Option.some.injEq] at hlisted
      obtain ⟨stopped, hstopped, -, hnot, -⟩ := hleaves.stopped p (.inl hlisted.symm)
      rw [hp, Option.some.injEq] at hstopped
      exact hrun (hstopped ▸ hnot)
    have hsounds := Manager.keepsSound_startLight hw limits.depth light code tag hearsReset s
      hsound
    rw [hcall] at hsounds
    exact ⟨hrun, hsounds.not_pending hp hrun⟩

end

/-! ### Two lights -/

/-- The listener of one tag fails at its second reset, that of another one at its first segment. -/
def frail : Wiring Rat where
  scriptOf tag :=
    if tag = "torn" then
      { onReset := fun call => if call = 2 then [.fail (.listener "torn")] else [] }
    else if tag = "faint" then
      { onStep := fun call _ _ => if call = 1 then [.fail (.listener "faint")] else [] }
    else {}
  timelineOf _ := .ok [⟨true, 1, "W", 1⟩, ⟨false, 2, "W", 1⟩]

/-- Two lights are put on show for a while. -/
def twoShown : List (Operation Rat) :=
  [.act (.startLight "bank" none "torn" true), .act (.startLight "pier" none "calm" true),
    .advance (3 / 2)]

lemma frail_onlyFails : frail.OnlyFails where
  steps tag call index segment action haction := by
    simp only [frail] at haction
    grind
  resets tag call action haction := by
    simp only [frail] at haction
    grind

/-- One of two lights is shown again with a listener that fails: it stays listed, and the other one
is left alone. -/
theorem frail_failedStart_leavesListed :
    let s := ({ clock := 0 } : Stage Rat).run frail {} twoShown
    ∃ s', Manager.startLight frail (react frail maxDepth) "pier" none "faint" true s =
        .error (.listener "faint") s' ∧
      LeavesListed "pier" s s' ∧ s.lights.get? "bank" = some 0 ∧ Spares 0 s s' ∧
      ∀ p player, s'.players[p]? = some player → player.name = "pier" →
        player.running = false ∧ ∀ t, ¬ s'.IsPendingOf p t := by
  intro s
  have hlighting : ∀ operation ∈ twoShown, operation.Asks Action.IsLighting := by
    simp [twoShown, Operation.Asks, Action.IsLighting]
  have hannounces : Announces (Manager.startLight frail (react frail maxDepth) "pier" none "faint"
      true) s 19 ⟨3 / 2, .stepped "faint" 0 "W" 1⟩ :=
    ⟨by decide +kernel, by decide +kernel, rfl⟩
  have hbank : s.lights.get? "bank" = some 0 := by decide +kernel
  obtain ⟨fault', s', hcall, hfault, -, hleaves, hothers, hstopped⟩ :=
    run_failedStart frail frail_onlyFails {} 0 twoShown hlighting "pier" none "faint" true _ rfl
      _ rfl (.listener "faint") rfl 19 _ hannounces
  obtain rfl := hfault fun _ => rfl
  exact ⟨s', hcall, hleaves, hbank, (hothers "bank" (by simp)).2 0 hbank,
    hstopped (by simp [twoShown])⟩

/-- After a reset failed while both lights were taken off show, one of them runs unlisted.  It goes
on when it is shown again with a listener that fails, and then it is listed. -/
theorem frail_failedStart_leaves_running :
    let s := ({ clock := 0 } : Stage Rat).run frail {} (twoShown ++ [.act .stopAll])
    let call := Manager.startLight frail (react frail maxDepth) "pier" none "faint" true
    frail.OnlyFails ∧ Announces call s 19 ⟨3 / 2, .stepped "faint" 0 "W" 1⟩ ∧
      ∃ s', call s = .error (.listener "faint") s' ∧ s'.lights.get? "pier" = some 2 ∧
        s'.IsRunningFor "pier" 1 ∧ s'.IsPendingOf 1 3 := by
  intro s call
  have hlighting : ∀ operation ∈ twoShown ++ [.act .stopAll],
      operation.Asks Action.IsLighting := by
    simp [twoShown, Operation.Asks, Action.IsLighting]
  have hfiled : Filed False s :=
    filed_run frail_onlyFails (sound_empty 0) (filed_empty _ 0) {} hlighting False.elim
  have hannounces : Announces call s 19 ⟨3 / 2, .stepped "faint" 0 "W" 1⟩ :=
    ⟨by decide +kernel, by decide +kernel, rfl⟩
  have hfails : faultOf? maxDepth ((frail.scriptOf "faint").onStep 1 0 ⟨true, 1, "W", 1⟩) =
      some (.listener "faint") := rfl
  obtain ⟨fault', hfault, hcall⟩ :=
    startLight_of_announces frail_onlyFails hfiled rfl rfl hfails hannounces
  obtain rfl := hfault fun _ => rfl
  -- the player of the light before all lights were taken off show
  let player : Player Rat :=
    { name := "pier", timeline := [⟨true, 1, "W", 1⟩, ⟨false, 2, "W", 1⟩], tag := "calm",
      hearsReset := true, running := true, index := 1, generation := 2, timer := some 3,
      steps := 2, resets := 1 }
  let timer : Timer Rat := { due := 3, interval := 2, player := 1, generation := 2 }
  refine ⟨frail_onlyFails, hannounces, _, hcall, by decide +kernel, ⟨player, ?_, rfl, rfl⟩,
    timer, ?_, rfl, rfl⟩
  · decide +kernel
  · decide +kernel

end Stage

end Seamark
