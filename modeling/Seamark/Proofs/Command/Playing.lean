import Seamark.Command.Run
import Seamark.Proofs.Command.Printed
import Seamark.Proofs.Playback.Faultless

/-!
# Playing in the terminal

However a performance ends, its player is stopped when it does: nothing is pending, and however much
time passes, nothing more is printed (`IsOver`).  If no segment fails to be drawn, what is printed is
told in full (`screenplay`): the player says that it plays, the bars follow of the segments that have
started when the wait ends, each when its segment starts (`Bars`), and then the player is stopped.
A clock that refuses to wait ends the command; otherwise its status is zero then.
-/

namespace Seamark.Command

open Stage Timeline

variable {α : Type}

/-- Playback is over: the only player does not run and has no pending timer, and nothing happens any
more, however much time passes. -/
structure IsOver [Scalar α] (w : Wiring α) (s : Stage α) : Prop where
  /-- The player does not run. -/
  stopped : ∃ player, s.players = [player] ∧ player.running = false
  /-- No timer is pending. -/
  idle : s.pendingTimers = []
  /-- Nothing more is noted. -/
  silent : ∀ (limits : Limits) (times : List α), (s.run w limits (times.map .advance)).log = s.log

/-- The bars of segments number `0` to `m` of the endless loop, each in a line of its own that is
printed when the segment starts. -/
structure Bars (table : Table String) (ts : Timeline Rat) (m : Nat) (bars : List (Chunk Rat)) :
    Prop where
  /-- There is one for each number. -/
  length : bars.length = m + 1
  /-- The line of a number shows the bar of the segment that it stands for, and its index. -/
  bar : ∀ i ≤ m, ∃ segment bar, ts[i % ts.length]? = some segment ∧
    Color.bar table segment = .ok bar ∧
    bars[i]? = some ⟨ts.startOf i, bar ++ " [" ++ Text.padLeft 2 (toString (i % ts.length)) ++ "] "
      ++ segment.color ++ "\r"⟩

/-- The time that passes before the player is stopped: none if the clock refuses to wait. -/
def elapsed (seconds : Rat) (interruption : Option Rat) (clock : Clock Rat) : Rat :=
  if (clock.error? seconds).isSome then 0 else interruption.getD seconds

/-- What is printed when a player starts: what stood in its line is wiped out, and it says what it
plays. -/
def overture (code : String) (ts : Timeline Rat) : List (Chunk Rat) :=
  [⟨0, wipe ++ "\r"⟩, ⟨0, "[PLAYER] " ++ code ++ ": playing " ++ toString ts.length ++
    " segments (" ++ Scalar.fixed 2 ts.total ++ "s cycle)\n"⟩]

/-- What is printed when a timeline is played, with the bars of its segments. -/
def screenplay (code : String) (ts : Timeline Rat) (seconds : Rat) (interruption : Option Rat)
    (clock : Clock Rat) (bars : List (Chunk Rat)) : List (Chunk Rat) :=
  let time := elapsed seconds interruption clock
  overture code ts ++ bars ++
    (if clock.error? seconds = none ∧ interruption.isSome then [⟨time, "\n[PLAYER] Interrupted\n"⟩]
      else []) ++
    [⟨time, wipe ++ "\r"⟩, ⟨time, "[PLAYER] " ++ code ++ ": stopped\n"⟩] ++
    match clock.error? seconds with
    | none => []
    | some cause => if cause.isReported then [⟨0, "Error: " ++ cause.message ++ "\n"⟩] else []

/-! ### A performance -/

section

variable [Scalar α] {table : Table String} {code : String} {ts : Timeline α} {s : Stage α}

/-- The stage before a performance. -/
def opening (code : String) (ts : Timeline α) : Stage α :=
  solo 0.0 code ts "bar" true

/-- The stage when the wait ends. -/
def waitedOn (w : Wiring α) (s : Stage α) (seconds : α) (interruption : Option α)
    (clock : Clock α) : Stage α :=
  if (clock.error? seconds).isSome then s else s.after w (.advance (interruption.getD seconds))

/-- How the wait ends. -/
def waitEnd (seconds : α) (interruption : Option α) (clock : Clock α) : Close :=
  match clock.error? seconds with
  | some cause => .refused cause
  | none => if interruption.isSome then .interrupted else .completed

omit [Scalar α] in
lemma waitEnd_eq_interrupted_iff {seconds : α} {interruption : Option α} {clock : Clock α} :
    waitEnd seconds interruption clock = .interrupted ↔
      clock.error? seconds = none ∧ interruption.isSome := by
  unfold waitEnd
  cases clock.error? seconds <;> cases interruption <;> simp

lemma barWiring_onlyFails (table : Table String) : (barWiring table : Wiring α).OnlyFails where
  steps tag call index segment action haction := by
    simp only [barWiring, barScript] at haction
    split at haction
    · simp at haction
    · exact ⟨_, List.mem_singleton.mp haction⟩
  resets tag call action haction := by simp [barWiring, barScript] at haction

lemma barWiring_quietResets (table : Table String) : (barWiring table : Wiring α).QuietResets :=
  fun _ _ => rfl

/-- If there is nothing that the listener has to do at a segment, its bar is drawn. -/
lemma exists_bar {tag : String} {call index : Nat} {segment : Segment α}
    (h : ((barWiring table).scriptOf tag).onStep call index segment = []) :
    ∃ bar, Color.bar table segment = .ok bar := by
  simp only [barWiring, barScript] at h
  split at h
  · exact ⟨_, ‹_›⟩
  · simp at h

/-- A performance whose player starts: it is stopped after the wait. -/
lemma perform_of_ok
    (hstart : Player.start (barWiring table) (react (barWiring table) maxDepth) 0
      (opening code ts) = .ok ⟨⟩ s) (seconds : α) (interruption : Option α) (clock : Clock α) :
    perform table code ts seconds interruption clock =
      ⟨waitedOn (barWiring table) s seconds interruption clock,
        (waitedOn (barWiring table) s seconds interruption clock).stopPlayer 0,
        waitEnd seconds interruption clock⟩ := by
  have hperform : Stage.perform (barWiring table) (maxDepth + 1) (some 0) .start
      { Stage.initial with players := [barPlayer code ts] } = .ok ⟨⟩ s := hstart
  simp only [perform, hperform, ← after_stop (barWiring_quietResets table) _ {}, waitedOn, waitEnd]
  cases clock.error? seconds <;> cases interruption <;> rfl

/-- A performance whose player does not start is over at once. -/
lemma perform_of_error {fault : Fault}
    (hstart : Player.start (barWiring table) (react (barWiring table) maxDepth) 0
      (opening code ts) = .error fault s) (seconds : α) (interruption : Option α)
    (clock : Clock α) :
    perform table code ts seconds interruption clock = ⟨s, s, .failed fault⟩ := by
  have hperform : Stage.perform (barWiring table) (maxDepth + 1) (some 0) .start
      { Stage.initial with players := [barPlayer code ts] } = .error fault s := hstart
  simp only [perform, hperform]

/-! ### The player is stopped -/

/-- Playback of one player that does not run is over. -/
lemma isOver_of_stopped {player : Player α} (w : Wiring α) (hsound : Sound ⟨[], s⟩)
    (hone : s.players = [player]) (hrun : player.running = false) : IsOver w s := by
  have hidle : s.pendingTimers = [] := (oneChain_of_sound hsound hone).stopped hrun
  refine ⟨⟨player, hone, hrun⟩, hidle, fun limits times => ?_⟩
  clear hsound hone
  induction times generalizing s with
  | nil => rfl
  | cons time times ih =>
    have hafter : s.after w (.advance time) limits = { s with clock := s.clock + time } := by
      rw [after_advance, runDue_of_none (nextDue?_of_pendingTimers_eq_nil hidle _)]
      rfl
    rw [List.map_cons, run_cons, hafter]
    exact ih hidle

/-- A player that fails to start has been stopped. -/
lemma exists_stopped_of_error (table : Table String) {fault : Fault}
    (hstart : Player.start (barWiring table) (react (barWiring table) maxDepth) 0
      (opening code ts) = .error fault s) :
    ∃ player, s.players = [player] ∧ player.running = false := by
  have hw := barWiring_onlyFails (α := α) table
  have hone : (opening code ts).players = [barPlayer code ts] := rfl
  cases hseg : (barPlayer code ts).timeline[0]? with
  | none =>
    rw [Player.start_of_empty (barWiring_quietResets table) maxDepth (getElem?_zero hone)
      (by simpa using hseg)] at hstart
    cases hstart
  | some segment =>
    have hopens : Opens (barWiring table) maxDepth _ (opening code ts) _ _ segment :=
      opens_start hw hone hseg rfl
    rw [hopens.call_eq] at hstart
    generalize faultOf? _ _ = fault? at hstart
    cases fault? with
    | none => cases hstart
    | some _ =>
      cases hstart
      exact ⟨_, stopped_players_of_one hopens.one.1 _ _, rfl⟩

/-- A player that starts is the only one. -/
lemma sound_of_start (hstart : Player.start (barWiring table) (react (barWiring table) maxDepth) 0
      (opening code ts) = .ok ⟨⟩ s) : Sound ⟨[], s⟩ ∧ s.HoldsOne (barPlayer code ts) := by
  have hw := barWiring_onlyFails (α := α) table
  have hmade : Sound ⟨[], opening code ts⟩ := sound_solo 0.0 code ts "bar" true
  have hsound := Player.keepsSound_start hw maxDepth 0 _ hmade
  have hholds := (isCall_start hw (s := opening code ts) rfl maxDepth).holdsOne
  rw [hstart, Playback.stageOf_ok] at hsound hholds
  exact ⟨hsound, hholds⟩

/-- When the wait ends, whether time has passed or not, the player is still the only one. -/
lemma sound_waitedOn (hstart : Player.start (barWiring table) (react (barWiring table) maxDepth) 0
      (opening code ts) = .ok ⟨⟩ s) (seconds : α) (interruption : Option α) (clock : Clock α) :
    let waited := waitedOn (barWiring table) s seconds interruption clock
    Sound ⟨[], waited⟩ ∧ waited.HoldsOne (barPlayer code ts) := by
  have hw := barWiring_onlyFails (α := α) table
  obtain ⟨hsound, hholds⟩ := sound_of_start hstart
  unfold waitedOn
  split_ifs
  · exact ⟨hsound, hholds⟩
  · exact ⟨sound_after hw hsound {} _, holdsOne_after hw hsound hholds {} trivial⟩

/-- However a performance ends, playback is over then. -/
lemma isOver_perform (table : Table String) (code : String) (ts : Timeline α) (seconds : α)
    (interruption : Option α) (clock : Clock α) :
    IsOver (barWiring table) (perform table code ts seconds interruption clock).final := by
  have hw := barWiring_onlyFails (α := α) table
  cases hstart : Player.start (barWiring table) (react (barWiring table) maxDepth) 0
      (opening code ts) with
  | error fault s =>
    have hmade : Sound ⟨[], opening code ts⟩ := sound_solo 0.0 code ts "bar" true
    have hsound := Player.keepsSound_start hw maxDepth 0 _ hmade
    rw [hstart] at hsound
    obtain ⟨player, hone, hrun⟩ := exists_stopped_of_error table hstart
    rw [perform_of_error hstart]
    exact isOver_of_stopped _ hsound hone hrun
  | ok _ s =>
    rw [perform_of_ok hstart]
    obtain ⟨hsounds, player, hone, -⟩ := sound_waitedOn hstart seconds interruption clock
    have hhalted : ((waitedOn (barWiring table) s seconds interruption clock).stopPlayer 0).players =
        [player.halted] := by simp [stopPlayer, hone]
    exact isOver_of_stopped _ (hsounds.stopPlayer 0) hhalted rfl

end

/-! ### What the log prints -/

lemma announcements_of_silent {log : List (Entry α)} (h : Silent log) :
    announcements log = [] := by
  rw [announcements, List.filter_eq_nil_iff]
  exact fun entry hentry => by simp [h entry hentry]

section

variable [Scalar α] (table : Table String) (ts : Timeline α)

lemma entryChunks_append (log log' : List (Entry α)) :
    entryChunks table ts (log ++ log') = entryChunks table ts log ++ entryChunks table ts log' :=
  List.filterMap_append

/-- Of the turns of a player, only the announcements print something. -/
lemma entryChunks_turning {log : List (Entry α)} (h : Turning log) :
    entryChunks table ts log = entryChunks table ts (announcements log) := by
  rw [entryChunks, entryChunks, announcements, List.filterMap_filter]
  refine List.filterMap_congr fun entry hentry => ?_
  rcases h entry hentry with hstep | ⟨timer, interval, harmed⟩
  · rw [if_pos hstep]
  · simp [harmed, Event.isStep, eventText?, Event.message?]

/-- A player that stops wipes its bar out and says so. -/
lemma entryChunks_partings {player : Player α} (hears : player.hearsReset = true)
    (hrun : player.running = true) (s : Stage α) (time : α) :
    entryChunks table ts ((s.partings player).map (⟨time, ·⟩)) =
      [⟨time, wipe ++ "\r"⟩, ⟨time, "[PLAYER] " ++ player.name ++ ": stopped\n"⟩] := by
  have hcancelled (t : Nat) : eventText? table ts (.cancelled t) = none := rfl
  have hreset : eventText? table ts (.reset player.tag) = some (wipe ++ "\r") := rfl
  have hstopped : eventText? table ts (.stopped player.name) =
      some ("[PLAYER] " ++ player.name ++ ": stopped\n") := by
    simp [eventText?, Event.message?, String.append_assoc]
  rw [partings, if_pos hears, if_pos hrun]
  split
  · split_ifs <;> simp [entryChunks, hcancelled, hreset, hstopped]
  · simp [entryChunks, hreset, hstopped]

end

/-- The announcements of segments whose listener did nothing print their bars. -/
lemma Bars.of_announced {table : Table String} {ts : Timeline Rat} {tag : String} {m : Nat}
    {log : List (Entry Rat)} (h : Announced ts tag 0 m (announcements log))
    (haccepted : Accepted (barWiring table) ts log) :
    Bars table ts m (entryChunks table ts (announcements log)) := by
  have hline : ∀ i ≤ m, ∃ segment bar, ts[i % ts.length]? = some segment ∧
      Color.bar table segment = .ok bar ∧ ∃ entry, (announcements log)[i]? = some entry ∧
        entry.time = ts.startOf i ∧
        eventText? table ts entry.event = some (barLine bar (i % ts.length) segment.color) := by
    intro i hi
    obtain ⟨segment, hseg, hentry⟩ := h.entry i hi
    have hmem := (List.mem_filter.mp (List.mem_of_getElem? hentry)).1
    obtain ⟨call, shown, hshown, hsilent⟩ := haccepted _ hmem _ _ _ _ rfl
    obtain rfl : segment = shown := by simpa [hseg] using hshown
    obtain ⟨bar, hbar⟩ := exists_bar hsilent
    exact ⟨segment, bar, hseg, hbar, _, hentry, zero_add _, by simp [eventText?, hseg, hbar]⟩
  -- so every announcement prints a line
  have hlines : entryChunks table ts (announcements log) = (announcements log).map fun entry =>
      ⟨entry.time, (eventText? table ts entry.event).getD ""⟩ := by
    rw [entryChunks, List.filterMap_eq_map_iff_forall_eq_some]
    intro entry hentry
    obtain ⟨i, hi, rfl⟩ := List.mem_iff_getElem.mp hentry
    obtain ⟨_, _, -, -, said, hsaid, -, hline⟩ := hline i (by rw [h.length] at hi; omega)
    obtain rfl : (announcements log)[i] = said := by simpa [hi] using hsaid
    rw [hline, Option.map_some, Option.getD_some]
  refine ⟨by rw [hlines, List.length_map, h.length], fun i hi => ?_⟩
  obtain ⟨segment, bar, hseg, hbar, entry, hentry, htime, hline⟩ := hline i hi
  exact ⟨segment, bar, hseg, hbar, by simp [hlines, hentry, hline, htime, barLine]⟩

/-- The log of a player that has started at the time zero: a reset, a report that it plays, and then
nothing but its turns. -/
def Underway (code : String) (ts : Timeline Rat) (log : List (Entry Rat)) : Prop :=
  ∃ turns, log = [⟨0, .reset "bar"⟩, ⟨0, .playing code ts.length ts.total⟩] ++ turns ∧
    Turning turns

/-- What such a log prints. -/
lemma Underway.entryChunks_eq {code : String} {ts : Timeline Rat} {log : List (Entry Rat)}
    (h : Underway code ts log) (table : Table String) :
    entryChunks table ts log = overture code ts ++ entryChunks table ts (announcements log) := by
  obtain ⟨turns, rfl, hturns⟩ := h
  have hplaying : eventText? table ts (.playing code ts.length ts.total) =
      some ("[PLAYER] " ++ code ++ ": playing " ++ toString ts.length ++ " segments (" ++
        Scalar.fixed 2 ts.total ++ "s cycle)\n") := by
    simp [eventText?, Event.message?, String.append_assoc]
  rw [announcements_append, announcements_of_silent (by simp [Silent, Event.isStep]),
    List.nil_append, entryChunks_append, entryChunks_turning table ts hturns]
  congr 1
  simp only [entryChunks, List.filterMap_cons, hplaying, Option.map_some, List.filterMap_nil]
  rfl

/-! ### The loop up to the end of the wait -/

/-- The player before its first segment. -/
lemma atRest_opening (table : Table String) (code : String) (ts : Timeline Rat) :
    AtRest ts "bar" 0 ((opening code ts).stopped (barWiring table) maxDepth 0)
      (barPlayer code ts).halted where
  one := stopped_players_of_one rfl _ _
  stopped := rfl
  timer := rfl
  timeline := rfl
  listener := rfl
  timers := by simp [stopPlayer, opening, solo, Player.callOff]
  clock := (stopped_clock _ _ _ _).trans zero_rat
  announced := by
    have hone : (opening code ts).players = [barPlayer code ts] := rfl
    rw [stopped_log_of_one hone]
    exact announcements_of_silent (silent_partingsOf _ _ _ _ _)

/-- The log of a player that has just started. -/
lemma underway_start (table : Table String) (code : String) (ts : Timeline Rat)
    (segment : Segment Rat) (turn : Turn Rat) :
    Underway code ts ((((opening code ts).stopped (barWiring table) maxDepth 0).beginTurn 0
      (barPlayer code ts).halted segment).armedFor turn (barPlayer code ts).halted.begun).log := by
  have hone : (opening code ts).players = [barPlayer code ts] := rfl
  have hpartings : (opening code ts).partingsOf (barWiring table) maxDepth (barPlayer code ts) =
      [.reset "bar"] := rfl
  have hclock : (opening code ts).clock = 0 := zero_rat
  rw [log_start hone, hpartings, hclock]
  exact ⟨_, rfl, turning_turn _ _ _ _ _ _⟩

section

variable {table : Table String} {code : String} {ts : Timeline Rat} {s : Stage Rat}
  (hne : ts ≠ []) (hpos : ∀ segment ∈ ts, 0 < segment.duration)
  (hstart : Player.start (barWiring table) (react (barWiring table) maxDepth) 0
    (opening code ts) = .ok ⟨⟩ s)
include hne hpos hstart

/-- A player that starts shows its first segment, whose bar can be drawn. -/
lemma playing_start : (∃ player, Playing ts "bar" 0 0 s player []) ∧ s.clock = 0 ∧
    Accepted (barWiring table) ts s.log ∧ Underway code ts s.log := by
  have hw := barWiring_onlyFails (α := Rat) table
  have hone : (opening code ts).players = [barPlayer code ts] := rfl
  obtain ⟨segment, hseg⟩ : ∃ segment, ts[0]? = some segment :=
    ⟨_, List.getElem?_eq_getElem (List.length_pos_of_ne_nil hne)⟩
  rw [Player.start_eq_closed hw maxDepth (getElem?_zero hone) hseg rfl] at hstart
  cases hok : stepFault? (barWiring table) maxDepth (barPlayer code ts).halted 0 segment with
  | some fault =>
    rw [hok] at hstart
    cases hstart
  | none =>
    rw [hok] at hstart
    cases hstart
    have hrest := atRest_opening table code ts
    exact ⟨⟨_, hrest.playing hpos hne hseg⟩, hrest.clock,
      accepted_start hw hone hseg hok fun entry hentry => absurd hentry List.not_mem_nil,
      underway_start table code ts segment _⟩

/-- When the wait ends, the player shows the segment that started last. -/
lemma playing_waitedOn {seconds : Rat} {interruption : Option Rat} {clock : Clock Rat}
    (htime : 0 ≤ elapsed seconds interruption clock)
    (hcaught : CaughtUp (waitedOn (barWiring table) s seconds interruption clock))
    (hfine : Faultless (waitedOn (barWiring table) s seconds interruption clock).log) :
    let waited := waitedOn (barWiring table) s seconds interruption clock
    (∃ m player done, Playing ts "bar" 0 m waited player done) ∧
      waited.clock = elapsed seconds interruption clock ∧
      Accepted (barWiring table) ts waited.log ∧ Underway code ts waited.log := by
  obtain ⟨⟨first, hfirst⟩, hclock, haccepted, hunderway⟩ := playing_start hne hpos hstart
  unfold waitedOn elapsed at *
  split_ifs at * with hrefused
  · exact ⟨⟨0, first, [], hfirst⟩, hclock, haccepted, hunderway⟩
  have hw := barWiring_onlyFails (α := Rat) table
  obtain ⟨hsound, hholds⟩ := sound_of_start hstart
  -- no bar failed, so the loop went on as if none was drawn
  obtain ⟨hmuted, haccepts⟩ := after_advance_of_faultless hw hsound hholds {} _ hfine
  have haccepted' := haccepts haccepted
  rw [hmuted] at hcaught haccepted' ⊢
  obtain ⟨hlater, hplaying⟩ := Playing.advance hpos (fun _ _ _ => rfl) hne {} htime
    ⟨0, first, [], hfirst⟩ hcaught
  obtain ⟨turns, hlog, hturns⟩ := exists_log_after_advance hsound (barWiring table) {}
    (interruption.getD seconds)
  obtain ⟨before, hbefore, hbefores⟩ := hunderway
  rw [hclock, zero_add] at hlater
  exact ⟨hplaying, hlater, haccepted', before ++ turns,
    by rw [hlog, hbefore, List.append_assoc], hbefores.append hturns⟩

end

/-! ### What playing prints -/

section

variable {table : Table String} {code : String}

/-- A performance that does not fail at its start ends with the wait. -/
lemma close_perform [Scalar α] {ts : Timeline α} {seconds : α} {interruption : Option α}
    {clock : Clock α}
    (hclose : ∀ fault, (perform table code ts seconds interruption clock).close ≠ .failed fault) :
    ∃ s, Player.start (barWiring table) (react (barWiring table) maxDepth) 0 (opening code ts) =
      .ok ⟨⟩ s ∧ (perform table code ts seconds interruption clock).close =
        waitEnd seconds interruption clock := by
  cases hstart : Player.start (barWiring table) (react (barWiring table) maxDepth) 0
      (opening code ts) with
  | ok _ s => exact ⟨s, rfl, by rw [perform_of_ok hstart]⟩
  | error fault s => exact absurd (by rw [perform_of_error hstart]) (hclose fault)

/-- What playing comes to if the player starts. -/
lemma play_eq [Scalar α] {ts : Timeline α} {seconds : α} {interruption : Option α}
    {clock : Clock α}
    (hclose : ∀ fault, (perform table code ts seconds interruption clock).close ≠ .failed fault) :
    play table code ts seconds interruption clock =
      let printed := (perform table code ts seconds interruption clock).printed table ts
      match clock.error? seconds with
      | none => ⟨printed, .status 0⟩
      | some cause => .troubled printed (.wait cause) := by
  obtain ⟨s, -, hend⟩ := close_perform hclose
  rw [play, hend, waitEnd]
  cases clock.error? seconds <;> cases interruption <;> rfl

/-- How playing ends if the player starts. -/
lemma play_ends [Scalar α] {ts : Timeline α} {seconds : α} {interruption : Option α}
    {clock : Clock α}
    (hclose : ∀ fault, (perform table code ts seconds interruption clock).close ≠ .failed fault) :
    let outcome := play table code ts seconds interruption clock
    match clock.error? seconds with
    | none => outcome.ending = .status 0
    | some cause =>
      if cause.isReported then
        outcome.ending = .status 1 ∧
          ∃ before, outcome.text = before ++ ("Error: " ++ cause.message ++ "\n")
      else outcome.ending = .unreported (.wait cause) := by
  intro outcome
  have houtcome : outcome = _ := play_eq hclose
  cases herror : clock.error? seconds with
  | none => rw [houtcome, herror]
  | some cause =>
    rw [herror] at houtcome
    dsimp only at houtcome ⊢
    have hwait : (Trouble.wait cause).isReported = cause.isReported := rfl
    rw [houtcome, Outcome.ending_troubled, hwait]
    split_ifs with hreported
    · exact ⟨rfl, _, Outcome.text_troubled _ (hwait.trans hreported)⟩
    · rfl

/-- What is printed when a player that plays is stopped. -/
lemma printed_of_playing {ts : Timeline Rat} {waited : Stage Rat} {m : Nat} {player : Player Rat}
    {done : List (Timer Rat)} (hplaying : Playing ts "bar" 0 m waited player done)
    (hkind : player.kind = barPlayer code ts) (hunderway : Underway code ts waited.log)
    (table : Table String) (close : Close) :
    (⟨waited, waited.stopPlayer 0, close⟩ : Performance Rat).printed table ts =
      overture code ts ++ entryChunks table ts (announcements waited.log) ++
      (if close = .interrupted then [⟨waited.clock, "\n[PLAYER] Interrupted\n"⟩] else []) ++
      [⟨waited.clock, wipe ++ "\r"⟩, ⟨waited.clock, "[PLAYER] " ++ code ++ ": stopped\n"⟩] := by
  have hname : player.name = code := congrArg Player.name hkind
  have hears : player.hearsReset = true := congrArg Player.hearsReset hkind
  have hlog : (waited.stopPlayer 0).log =
      waited.log ++ (waited.partings player).map (⟨waited.clock, ·⟩) := by
    simp [stopPlayer, hplaying.one]
  rw [Performance.printed]
  dsimp only
  rw [hlog, List.drop_left, hunderway.entryChunks_eq,
    entryChunks_partings table ts hears hplaying.running, hname]

/-- Of the endless loop, exactly the segments that have started when the wait ends are drawn, if none
of them fails to be drawn. -/
lemma printed_play {ts : Timeline Rat} (hne : ts ≠ [])
    (hpos : ∀ segment ∈ ts, 0 < segment.duration) {seconds : Rat} {interruption : Option Rat}
    {clock : Clock Rat} (htime : 0 ≤ elapsed seconds interruption clock)
    (hcaught : CaughtUp (perform table code ts seconds interruption clock).waited)
    (hclose : ∀ fault, (perform table code ts seconds interruption clock).close ≠ .failed fault)
    (hfine : Faultless (perform table code ts seconds interruption clock).final.log) :
    ∃ m bars, (∀ i, ts.startOf i ≤ elapsed seconds interruption clock ↔ i ≤ m) ∧
      Bars table ts m bars ∧
      (play table code ts seconds interruption clock).printed =
        screenplay code ts seconds interruption clock bars := by
  obtain ⟨s, hstart, -⟩ := close_perform hclose
  have hplay := play_eq hclose
  rw [perform_of_ok hstart] at hcaught hfine hplay
  dsimp only at hcaught hfine hplay
  have hgrows := (Later.stopPlayer (waitedOn (barWiring table) s seconds interruption clock) 0).log
  obtain ⟨⟨m, player, done, hplaying⟩, hclock, haccepted, hunderway⟩ :=
    playing_waitedOn hne hpos hstart htime hcaught (hfine.of_isPrefix hgrows)
  obtain ⟨-, other, hone, hkind⟩ := sound_waitedOn hstart seconds interruption clock
  obtain rfl : other = player := by simpa using hone.symm.trans hplaying.one
  have hstarted := hplaying.started
  have hwaiting := hplaying.lt_of_nextDue?_eq_none hcaught
  rw [hclock, zero_add] at hstarted hwaiting
  refine ⟨m, _, startOf_le_iff hpos hne hstarted hwaiting,
    .of_announced hplaying.announced haccepted, ?_⟩
  rw [hplay, printed_of_playing hplaying hkind hunderway, hclock, screenplay]
  simp only [waitEnd_eq_interrupted_iff]
  cases clock.error? seconds with
  | none => exact (List.append_nil _).symm
  | some cause =>
    dsimp only
    rw [Outcome.printed_troubled, zero_rat]
    rfl

end

/-! ### The command that plays -/

/-- A command line asks for the timeline of a notation to be played for some time, with the colours
of a configuration. -/
structure AsksToPlay (fetch : Fetch Id) (line : List String) (config : Config) (code : String)
    (ts : Timeline Float) (seconds : Float) : Prop where
  /-- The arguments name the notation and the time, and the files can be read that come first. -/
  line : ∃ args path, Arguments.read line = .ok args ∧ args.code = some code ∧
    args.play = some seconds ∧ (configure fetch args.config).run = .ok config ∧
    catalogPath args config = .ok path
  /-- The time is not zero. -/
  seconds : isZero seconds = false
  /-- The notation has the timeline. -/
  timeline : (config.compiler Morse.builtin).compileText Morse.builtin code = .ok ts
  /-- There is something to play. -/
  segments : ts ≠ []

/-- Such a command plays the timeline. -/
lemma AsksToPlay.run_eq {fetch : Fetch Id} {line : List String} {config : Config} {code : String}
    {ts : Timeline Float} {seconds : Float} (h : AsksToPlay fetch line config code ts seconds)
    (interruption : Option Float) (clock : Clock Float) :
    (run fetch interruption line clock).run =
      play config.colorTable code ts seconds interruption clock := by
  obtain ⟨args, path, hline, hcode, hplay, hconfig, hpath⟩ := h.line
  have hpresent : present args config code interruption clock =
      play config.colorTable code ts seconds interruption clock := by
    obtain ⟨segment, more, rfl⟩ := List.exists_cons_of_ne_nil h.segments
    simp [present, hplay, h.seconds, playCode, h.timeline]
  rw [run, hline]
  dsimp only [Id.run] at hconfig ⊢
  rw [execute]
  dsimp only [bind, pure]
  rw [hconfig, hcode]
  dsimp only
  rw [hpath]
  exact hpresent

/-- **Playing always ends with the player stopped.**  However the wait ends, and also if a segment
cannot be drawn, the player does not run when the performance ends, none of its timers is pending,
and nothing more is printed, however much time passes.

With exact times, let no timer be overdue when the wait ends and let no segment fail to be drawn.
Then of the endless loop exactly the segments that have started when the wait ends are shown, each
by one line that is printed when it starts, with its bar and its index.  The lines are printed after
the report that the player plays and before the reports of an interruption, of the end of playback
and of a refusal by the clock, and nothing else is printed.

If the player starts, the status is zero unless the clock refuses to wait.  What it refuses is
reported on a line of its own, with the status one, or leaves the command unreported.  The clock that
counts refuses a negative time, and no other.  All this is what the command does that asks for a
timeline to be played. -/
theorem play_ends_stopped :
    (∀ (α : Type) [Scalar α] (table : Table String) (code : String) (ts : Timeline α)
      (seconds : α) (interruption : Option α) (clock : Clock α),
      IsOver (barWiring table) (perform table code ts seconds interruption clock).final) ∧
    (∀ (table : Table String) (code : String) (ts : Timeline Rat) (seconds : Rat)
      (interruption : Option Rat) (clock : Clock Rat), ts ≠ [] →
      (∀ segment ∈ ts, 0 < segment.duration) → 0 ≤ elapsed seconds interruption clock →
      let p := perform table code ts seconds interruption clock
      CaughtUp p.waited → (∀ fault, p.close ≠ .failed fault) → Faultless p.final.log →
      let outcome := play table code ts seconds interruption clock
      ∃ m bars, (∀ i, ts.startOf i ≤ elapsed seconds interruption clock ↔ i ≤ m) ∧
        Bars table ts m bars ∧
        outcome.printed = screenplay code ts seconds interruption clock bars ∧
        outcome.text =
          String.join ((screenplay code ts seconds interruption clock bars).map (·.text))) ∧
    (∀ (α : Type) [Scalar α] (table : Table String) (code : String) (ts : Timeline α)
      (seconds : α) (interruption : Option α) (clock : Clock α),
      (∀ fault, (perform table code ts seconds interruption clock).close ≠ .failed fault) →
      let outcome := play table code ts seconds interruption clock
      match clock.error? seconds with
      | none => outcome.ending = .status 0
      | some cause =>
        if cause.isReported then
          outcome.ending = .status 1 ∧
            ∃ before, outcome.text = before ++ ("Error: " ++ cause.message ++ "\n")
        else outcome.ending = .unreported (.wait cause)) ∧
    (∀ (α : Type) [Scalar α] (table : Table String) (code : String) (ts : Timeline α)
      (seconds : α) (interruption : Option α),
      (∀ fault, (perform table code ts seconds interruption).close ≠ .failed fault) →
      let outcome := play table code ts seconds interruption
      if seconds < 0.0 then
        outcome.ending = .status 1 ∧
          ∃ before, outcome.text = before ++ "Error: sleep length must be non-negative\n"
      else outcome.ending = .status 0) ∧
    ∀ (fetch : Fetch Id) (line : List String) (config : Config) (code : String)
      (ts : Timeline Float) (seconds : Float) (interruption : Option Float) (clock : Clock Float),
      AsksToPlay fetch line config code ts seconds →
      (run fetch interruption line clock).run =
        play config.colorTable code ts seconds interruption clock := by
  refine ⟨fun α _ => isOver_perform, ?_, fun α _ table code ts seconds interruption clock hclose =>
    play_ends hclose, ?_, fun _ _ _ _ _ _ interruption clock hasks =>
    hasks.run_eq interruption clock⟩
  · intro table code ts seconds interruption clock hne hpos htime p hcaught hclose hfine outcome
    obtain ⟨m, bars, hstarted, hbars, hprinted⟩ :=
      printed_play hne hpos htime hcaught hclose hfine
    exact ⟨m, bars, hstarted, hbars, hprinted, by rw [← hprinted]; rfl⟩
  · intro α _ table code ts seconds interruption hclose outcome
    have hends := play_ends hclose
    have herror : (Clock.counted : Clock α).error? seconds =
        if seconds < 0.0 then some .negative else none := rfl
    rw [herror] at hends
    split_ifs at hends ⊢
    · exact hends
    · exact hends

/-- One second of light and one of darkness. -/
def glow : Timeline Rat := [⟨true, 1, "W", 1⟩, ⟨false, 1, "W", 1⟩]

/-- The files of a command that names none. -/
def noFiles : Fetch Id := fun _ => .error .missing

/-- Three seconds of a wait of ten show four bars; a wait of less than no time is reported. -/
theorem glow_ends_stopped :
    let p := perform Color.builtin "Iso W 2s" glow 10 (some 3)
    (IsOver (barWiring Color.builtin) p.final ∧ ∃ bars, Bars Color.builtin glow 3 bars ∧
        (play Color.builtin "Iso W 2s" glow 10 (some 3)).text = String.join
          ((screenplay "Iso W 2s" glow 10 (some 3) .counted bars).map (·.text))) ∧
      let outcome := (run noFiles none ["F W", "--play", "-1"]).run
      outcome.ending = .status 1 ∧
        ∃ before, outcome.text = before ++ "Error: sleep length must be non-negative\n" := by
  obtain ⟨hover, hshows, -, hends, hasked⟩ := play_ends_stopped
  refine ⟨?_, ?_⟩
  · have hlog : (perform Color.builtin "Iso W 2s" glow 10 (some 3)).final.log.map (·.event) =
        [.reset "bar", .playing "Iso W 2s" 2 2, .stepped "bar" 0 "W" 1, .armed 0 1,
          .stepped "bar" 1 "W" 0, .armed 1 1, .stepped "bar" 0 "W" 1, .armed 2 1,
          .stepped "bar" 1 "W" 0, .armed 3 1, .cancelled 3, .reset "bar",
          .stopped "Iso W 2s"] := by decide +kernel
    have hfine : Faultless (perform Color.builtin "Iso W 2s" glow 10 (some 3)).final.log := by
      intro entry hentry fault hraised
      have hmem := List.mem_map_of_mem (f := (·.event)) hentry
      rw [hlog, hraised] at hmem
      simp at hmem
    have hclose : (perform Color.builtin "Iso W 2s" glow 10 (some 3)).close = .interrupted := by
      decide +kernel
    have hcaught : CaughtUp (perform Color.builtin "Iso W 2s" glow 10 (some 3)).waited := by
      unfold CaughtUp
      decide +kernel
    obtain ⟨m, bars, hstarted, hbars, -, htext⟩ :=
      hshows Color.builtin "Iso W 2s" glow 10 (some 3) .counted (by simp [glow]) (by simp [glow])
        (by decide +kernel) hcaught (by simp [hclose]) hfine
    have hm : m = 3 := by
      have hlast : 3 ≤ m := (hstarted 3).mp (by decide +kernel)
      have hnext : ¬ 4 ≤ m := fun h => absurd ((hstarted 4).mpr h) (by decide +kernel)
      omega
    subst hm
    exact ⟨hover Rat Color.builtin "Iso W 2s" glow 10 (some 3) .counted, bars, hbars, htext⟩
  · have hasks : AsksToPlay noFiles ["F W", "--play", "-1"] {} "F W" [⟨true, 3.0, "W", 1.0⟩]
        (-1.0) := by
      refine ⟨⟨{ code := some "F W", play := some (-1.0) }, none, by rfl, rfl, rfl, rfl, rfl⟩,
        by decide +kernel, by decide +kernel, by simp⟩
    have hclose : (perform ({} : Config).colorTable "F W" [⟨true, 3.0, "W", 1.0⟩] (-1.0 : Float)
        none).close = .refused .negative := by decide +kernel
    have hnegative : (-1.0 : Float) < 0.0 := by decide +kernel
    have hending := hends Float ({} : Config).colorTable "F W" [⟨true, 3.0, "W", 1.0⟩] (-1.0) none
      (by simp [hclose])
    rw [if_pos hnegative] at hending
    rw [hasked _ _ _ _ _ _ none .counted hasks]
    exact hending

/-- A time that the clock of the system accepts, the clock that counts accepts too. -/
theorem Clock.counted_error?_eq_none {seconds : Float} (h : system.error? seconds = none) :
    counted.error? seconds = none := by
  simp only [system] at h
  split_ifs at h
  exact h

example : Clock.system.error? (0.0 / 0.0) = some .notANumber ∧
    Clock.system.error? 1e10 = some .tooLarge ∧ Clock.system.error? (-1e300) = some .tooLarge ∧
    Clock.system.error? (-1.0) = some .negative ∧ Clock.system.error? 30.0 = none := by
  decide +kernel

end Seamark.Command
