import Seamark.Proofs.Playback.Shown
import Seamark.Proofs.Playback.Resuming

/-!
# Lights that are listed

Each light that is listed has a player of its own, and a player that runs is the one listed for its
light (`Filed`).  Listeners that fail keep the first, but not the second: a listener that fails when
all lights are taken off show keeps the players after its own from being stopped, and these go on
unlisted.  So the second is asked for only where no reset fails (`strict`).
-/

namespace Seamark

variable {α : Type}

namespace Stage

/-- Some players were stopped, armed or moved on: the lights and the names are what they were, and
no player runs that did not run before, but for some that were started. -/
structure Wakes (awake : Nat → Prop) (s s' : Stage α) : Prop where
  /-- The lights stay. -/
  lights : s'.lights = s.lights
  /-- The players keep their names. -/
  names : ∀ {p : Nat} {player : Player α}, s.players[p]? = some player →
    ∃ player', s'.players[p]? = some player' ∧ player'.name = player.name
  /-- A player that runs ran before or was started. -/
  running : ∀ {p : Nat} {player' : Player α}, s'.players[p]? = some player' →
    player'.running = true →
    awake p ∨ ∃ player, s.players[p]? = some player ∧ player.running = true

/-- Every light that is listed has a player of its name, and, if the listing is strict, every
running player is the one listed for its light. -/
structure Filed (strict : Prop) (s : Stage α) : Prop where
  /-- The player listed for a light is one of its own. -/
  named : ∀ {light : String} {p : Nat}, s.lights.get? light = some p →
    ∃ player, s.players[p]? = some player ∧ player.name = light
  /-- A running player is listed. -/
  listed : strict → ∀ {p : Nat} {player : Player α}, s.players[p]? = some player →
    player.running = true → s.lights.get? player.name = some p

/-! ### What the operations of a player leave alone -/

namespace Wakes

variable {awake : Nat → Prop} {s s' s'' : Stage α} {p : Nat} {player player' : Player α}

lemma of_eq (hplayers : s'.players = s.players) (hlights : s'.lights = s.lights) :
    Wakes awake s s' :=
  ⟨hlights, fun hp => ⟨_, hplayers ▸ hp, rfl⟩, fun hp hrun => .inr ⟨_, hplayers ▸ hp, hrun⟩⟩

lemma trans (h : Wakes awake s s') (h' : Wakes awake s' s'') : Wakes awake s s'' := by
  refine ⟨h'.lights.trans h.lights, fun hp => ?_, fun hp hrun => ?_⟩
  · obtain ⟨player', hp', hname⟩ := h.names hp
    obtain ⟨player'', hp'', hname'⟩ := h'.names hp'
    exact ⟨player'', hp'', hname'.trans hname⟩
  · rcases h'.running hp hrun with hawake | ⟨player, hplayer, hrunning⟩
    · exact .inl hawake
    · exact h.running hplayer hrunning

/-- One player changes that keeps its name. -/
lemma of_set (hp : s.players[p]? = some player) (hplayers : s'.players = s.players.set p player')
    (hlights : s'.lights = s.lights) (hname : player'.name = player.name)
    (hrun : player'.running = true → awake p ∨ player.running = true) : Wakes awake s s' := by
  have hself := getElem?_set_player hp player'
  refine ⟨hlights, fun {q other} hq => ?_, fun {q other} hq hrunning => ?_⟩
  · rw [hplayers]
    by_cases hpq : p = q
    · subst hpq
      rw [hp, Option.some.injEq] at hq
      exact ⟨player', hself, hq ▸ hname⟩
    · exact ⟨other, by rw [List.getElem?_set_ne hpq, hq], rfl⟩
  · rw [hplayers] at hq
    by_cases hpq : p = q
    · subst hpq
      rw [hself, Option.some.injEq] at hq
      exact (hrun (hq ▸ hrunning)).imp id fun h => ⟨player, hp, h⟩
    · rw [List.getElem?_set_ne hpq] at hq
      exact .inr ⟨other, hq, hrunning⟩

lemma stopped (w : Wiring α) (depth : Nat) (s : Stage α) (p : Nat) :
    Wakes awake s (s.stopped w depth p) := by
  cases hp : s.players[p]? with
  | none => exact of_eq (by simp [stopPlayer, hp]) (by simp)
  | some player =>
    refine of_set hp ?_ (by simp) (show player.halted.name = player.name from rfl) fun hrun => ?_
    · simp [stopPlayer, hp]
    · exact absurd hrun (by simp [Player.halted])

/-- A turn of a running player ends. -/
lemma closed [Scalar α] {turn : Turn α} (hp : s.players[turn.player]? = some player)
    (hrun : player.running = true) (w : Wiring α) (depth : Nat) (fault? : Option Fault) :
    Wakes awake s (Playback.stageOf (Stage.closed w depth turn player fault? s)) := by
  cases fault? with
  | none => exact of_set hp rfl rfl rfl fun _ => .inr hrun
  | some fault => exact stopped w depth s turn.player

lemma noting {m : Playback α Unit} (h : Wakes awake s (Playback.stageOf (m s))) :
    Wakes awake s (Playback.stageOf (Stage.noting m s)) :=
  Playback.stageOf_noting (Wakes awake s) h fun _ _ h => h.trans (of_eq rfl rfl)

variable [Scalar α] {w : Wiring α} (hw : w.OnlyFails)
include hw

lemma stop (depth : Nat) (s : Stage α) (p : Nat) :
    Wakes awake s (Playback.stageOf (Player.stop w (react w depth) p s)) := by
  cases hp : s.players[p]? with
  | none =>
    rw [Player.stop_of_none depth hp]
    exact of_eq rfl rfl
  | some player =>
    rw [Player.stop_eq_ending hw depth hp, Playback.stageOf_ending]
    exact stopped w depth s p

lemma stops (depth : Nat) (players : List Nat) (s : Stage α) :
    Wakes awake s (Playback.stageOf (players.forM (Player.stop w (react w depth)) s)) := by
  induction players generalizing s with
  | nil => exact of_eq rfl rfl
  | cons p players ih =>
    have hfirst : Wakes awake s _ := stop hw depth s p
    show Wakes awake s (Playback.stageOf ((Player.stop w (react w depth) p >>= fun _ =>
      players.forM (Player.stop w (react w depth))) s))
    rw [Playback.bind_apply]
    cases hs : Player.stop w (react w depth) p s with
    | ok _ s' =>
      rw [hs] at hfirst
      exact hfirst.trans (ih s')
    | error fault s' =>
      rw [hs] at hfirst
      exact hfirst

/-- A start makes one player run. -/
lemma start (depth : Nat) (s : Stage α) (p : Nat) :
    Wakes (· = p) s (Playback.stageOf (Player.start w (react w depth) p s)) := by
  cases hp : s.players[p]? with
  | none =>
    rw [Player.start, Playback.bind_apply, Player.stop_of_none depth hp]
    simp only [withPlayer_of_none hp, Playback.stageOf_ok]
    exact of_eq rfl rfl
  | some player =>
    have hstopped : Wakes (· = p) s (s.stopped w depth p) := stopped w depth s p
    have hhalted := getElem?_stopped hp w depth
    cases hseg : player.timeline[0]? with
    | none =>
      rw [Player.start_eq_ending_of_empty hw depth hp (by simpa using hseg),
        Playback.stageOf_ending]
      exact hstopped
    | some segment =>
      cases hreset : resetFault? w depth player with
      | some fault =>
        rw [Player.start_of_resetFault hw depth hp hreset]
        exact hstopped
      | none =>
        rw [Player.start_eq_closed hw depth hp hseg hreset]
        have hbegun : Wakes (· = p) (s.stopped w depth p)
            ((s.stopped w depth p).beginTurn p player.halted segment) :=
          of_set hhalted rfl rfl rfl fun _ => .inl rfl
        exact (hstopped.trans hbegun).trans (closed (getElem?_set_player hhalted _) rfl w depth _)

/-- A timer makes no player run. -/
lemma firedOne (depth : Nat) {s : Stage α} (hsound : Sound ⟨[], s⟩) (t : Nat) (timer : Timer α) :
    Wakes awake s (s.firedOne w depth t timer) := by
  have hfired : Wakes awake s (s.withFired t timer) := of_eq rfl rfl
  refine hfired.trans (noting ?_)
  by_cases hcurrent : s.IsCurrent timer.player timer.generation
  · obtain ⟨player, hp, hrun, hgen⟩ := hcurrent
    obtain ⟨segment, hseg⟩ := hsound.exists_next hp hrun
    rw [← hgen, Player.advance_eq_closed (s := s.withFired t timer) hw depth hp hrun hseg]
    have hmoved : Wakes awake (s.withFired t timer) ((s.withFired t timer).nextTurn timer.player
        player segment) :=
      of_set hp rfl rfl rfl fun _ => .inr hrun
    have hrunning : player.moved.running = true := hrun
    exact hmoved.trans
      (closed (getElem?_set_player (s := s.withFired t timer) hp player.moved) hrunning w depth _)
  · rw [Player.advance_of_not_current (s := s.withFired t timer) hcurrent]
    exact of_eq rfl rfl

lemma runDue (depth : Nat) {s : Stage α} (hsound : Sound ⟨[], s⟩) (target : α) (firings : Nat) :
    Wakes awake s (Playback.stageOf (Stage.runDue w depth target firings s)) :=
  stageOf_runDue hw (Wakes awake s) (fun _ _ h => h.trans (of_eq rfl rfl))
    (fun _ t timer hsound h _ => h.trans (firedOne hw depth hsound t timer)) hsound (of_eq rfl rfl)
    target firings

end Wakes

/-! ### The lights that are listed -/

section

variable {strict : Prop} {s s' : Stage α} {light : String} {player : Player α}

lemma filed_empty (strict : Prop) (clock : α) : Filed strict ({ clock := clock } : Stage α) where
  named hp := by simp [Table.get?] at hp
  listed _ {_ _} hp := by simp at hp

/-- The number of the next player is not listed. -/
lemma Filed.get?_ne_length (h : Filed strict s) (light : String) :
    s.lights.get? light ≠ some s.players.length := by
  intro hlisted
  obtain ⟨old, hold, -⟩ := h.named hlisted
  simp at hold

/-- What makes only listed players run keeps the listing. -/
lemma Filed.of_wakes {awake : Nat → Prop} (h : Filed strict s) (hwakes : Wakes awake s s')
    (hawake : ∀ p, awake p →
      ∃ player, s.players[p]? = some player ∧ s.lights.get? player.name = some p) :
    Filed strict s' := by
  refine ⟨fun hp => ?_, fun hstrict {p player'} hp hrun => ?_⟩
  · rw [hwakes.lights] at hp
    obtain ⟨player, hplayer, rfl⟩ := h.named hp
    obtain ⟨player', hplayer', hname⟩ := hwakes.names hplayer
    exact ⟨player', hplayer', hname⟩
  · obtain ⟨player, hplayer, hlisted⟩ :
        ∃ player, s.players[p]? = some player ∧ s.lights.get? player.name = some p := by
      rcases hwakes.running hp hrun with hawoken | ⟨player, hplayer, hrunning⟩
      · exact hawake p hawoken
      · exact ⟨player, hplayer, h.listed hstrict hplayer hrunning⟩
    obtain ⟨other, hother, hname⟩ := hwakes.names hplayer
    obtain rfl : player' = other := by simpa [hp] using hother
    rw [hwakes.lights, hname, hlisted]

lemma Filed.of_eq (h : Filed strict s) (hplayers : s'.players = s.players)
    (hlights : s'.lights = s.lights) : Filed strict s' := by
  have hwakes : Wakes (fun _ => False) s s' := .of_eq hplayers hlights
  exact h.of_wakes hwakes fun _ => False.elim

/-- The stage with a new player listed for a light, and the one that it replaces stopped. -/
def replacedBy (w : Wiring α) (depth : Nat) (s : Stage α) (light : String) (player : Player α) :
    Stage α :=
  let s' := { s with
    players := s.players ++ [player]
    lights := s.lights.set light s.players.length }
  match s.lights.get? light with
  | some q => s'.stopped w depth q
  | none => s'

/-- The fault of the listener whose player is replaced. -/
def replacedFault? (w : Wiring α) (depth : Nat) (s : Stage α) (light : String) : Option Fault := do
  let q ← s.lights.get? light
  let player ← s.players[q]?
  resetFault? w depth player

lemma replacedBy_of_none (h : s.lights.get? light = none) (w : Wiring α) (depth : Nat)
    (player : Player α) : replacedBy w depth s light player = { s with
      players := s.players ++ [player]
      lights := s.lights.set light s.players.length } := by
  simp [replacedBy, h]

lemma replacedBy_of_some {q : Nat} (hq : s.lights.get? light = some q) (w : Wiring α) (depth : Nat)
    (player : Player α) : replacedBy w depth s light player = stopped w depth { s with
      players := s.players ++ [player]
      lights := s.lights.set light s.players.length } q := by
  simp [replacedBy, hq]

@[simp] lemma replacedBy_lights (w : Wiring α) (depth : Nat) (s : Stage α) (light : String)
    (player : Player α) :
    (replacedBy w depth s light player).lights = s.lights.set light s.players.length := by
  unfold replacedBy
  split <;> simp

/-- The players but the replaced one are what they were. -/
lemma getElem?_replacedBy {p : Nat} (hp : s.lights.get? light ≠ some p) (w : Wiring α)
    (depth : Nat) (player : Player α) :
    (replacedBy w depth s light player).players[p]? = (s.players ++ [player])[p]? := by
  cases hq : s.lights.get? light with
  | none => rw [replacedBy_of_none hq]
  | some q =>
    have hqp : q ≠ p := fun hqp => hp (hqp ▸ hq)
    rw [replacedBy_of_some hq, stopped_players]
    exact Player.getElem?_stopPlayer_ne hqp _

/-- The replaced player is stopped. -/
lemma getElem?_replacedBy_self {q : Nat} {old : Player α} (hq : s.lights.get? light = some q)
    (hold : s.players[q]? = some old) (w : Wiring α) (depth : Nat) (player : Player α) :
    (replacedBy w depth s light player).players[q]? = some old.halted := by
  obtain ⟨hlen, -⟩ := List.getElem?_eq_some_iff.mp hold
  rw [replacedBy_of_some hq]
  refine getElem?_stopped ?_ w depth
  rw [List.getElem?_append_left hlen, hold]

/-- The new player. -/
lemma Filed.getElem?_new (h : Filed strict s) (light : String) (w : Wiring α) (depth : Nat)
    (player : Player α) :
    (replacedBy w depth s light player).players[s.players.length]? = some player := by
  rw [getElem?_replacedBy (h.get?_ne_length light), List.getElem?_concat_length]

/-- A player that is made is the one listed for its light. -/
lemma Filed.replacedBy (h : Filed strict s) (player : Player α) (hname : player.name = light)
    (hrun : player.running = false) (w : Wiring α) (depth : Nat) :
    Filed strict (replacedBy w depth s light player) := by
  refine ⟨fun {other p} hp => ?_, fun hstrict {p player'} hp hrunning => ?_⟩
  · rw [replacedBy_lights, Table.get?_set] at hp
    split at hp
    case isTrue heq =>
      rw [Option.some.injEq] at hp
      subst hp heq
      exact ⟨player, h.getElem?_new _ w depth player, hname⟩
    case isFalse hother =>
      obtain ⟨old, hold, rfl⟩ := h.named hp
      obtain ⟨hlen, -⟩ := List.getElem?_eq_some_iff.mp hold
      refine ⟨old, ?_, rfl⟩
      -- what is listed for another light has another name, and so was not replaced
      rw [getElem?_replacedBy, List.getElem?_append_left hlen, hold]
      intro hlisted
      obtain ⟨old', hold', hname'⟩ := h.named hlisted
      rw [hold, Option.some.injEq] at hold'
      exact hother (hold' ▸ hname')
  · have hq : s.lights.get? light ≠ some p := by
      intro hq
      obtain ⟨old, hold, -⟩ := h.named hq
      rw [getElem?_replacedBy_self hq hold, Option.some.injEq] at hp
      simp [← hp, Player.halted] at hrunning
    rw [getElem?_replacedBy hq, List.getElem?_append] at hp
    split at hp
    case isTrue hlt =>
      have hlisted := h.listed hstrict hp hrunning
      rw [replacedBy_lights, Table.get?_set, if_neg, hlisted]
      rintro rfl
      exact hq hlisted
    case isFalse =>
      have hmem := List.mem_of_getElem? hp
      rw [List.mem_singleton.mp hmem, hrun] at hrunning
      simp at hrunning

/-- Taking a light off show. -/
lemma Filed.erase (h : Filed strict s) {q : Nat} (hq : s.lights.get? light = some q)
    (w : Wiring α) (depth : Nat) :
    Filed strict (Stage.stopped w depth { s with lights := s.lights.erase light } q) := by
  obtain ⟨old, hold, hname⟩ := h.named hq
  refine ⟨fun {other p} hp => ?_, fun hstrict {p player'} hp hrunning => ?_⟩
  · rw [stopped_lights, Table.get?_erase] at hp
    split at hp
    case isTrue => simp at hp
    case isFalse =>
      obtain ⟨player, hplayer, hlight⟩ := h.named hp
      by_cases hqp : q = p
      · subst hqp
        have hhalted := getElem?_stopped (s := { s with lights := s.lights.erase light }) hplayer w
          depth
        exact ⟨player.halted, hhalted, hlight⟩
      · refine ⟨player, ?_, hlight⟩
        rw [stopped_players, Player.getElem?_stopPlayer_ne hqp, hplayer]
  · by_cases hqp : q = p
    · subst hqp
      have hhalted := getElem?_stopped (s := { s with lights := s.lights.erase light }) hold w depth
      rw [hhalted, Option.some.injEq] at hp
      simp [← hp, Player.halted] at hrunning
    · rw [stopped_players, Player.getElem?_stopPlayer_ne hqp] at hp
      have hlisted := h.listed hstrict hp hrunning
      rw [stopped_lights, Table.get?_erase, if_neg, hlisted]
      intro hlight
      rw [hlight, hq, Option.some.injEq] at hlisted
      exact hqp hlisted

end

/-! ### Runs keep the listing -/

variable [Scalar α] {strict : Prop} {w : Wiring α} (hw : w.OnlyFails)

section

open Playback

variable {s : Stage α} {light : String}

include hw

/-- To show a timeline is to list a new player, to stop the one that it replaces, and, if this does
not fail, to start it. -/
lemma showTimeline_eq_start (h : Filed strict s) (depth : Nat) (light : String) (ts : Timeline α)
    (tag : String) (hearsReset : Bool) :
    Manager.showTimeline w (react w depth) light ts tag hearsReset s =
      match replacedFault? w depth s light with
      | some fault => .error fault
          (replacedBy w depth s light (Manager.newPlayer light ts tag hearsReset))
      | none => Player.start w (react w depth) s.players.length
          (replacedBy w depth s light (Manager.newPlayer light ts tag hearsReset)) := by
  -- nothing takes the light off show while its player starts
  have hstart : ∀ s₁ : Stage α, s₁.lights = s.lights.set light s.players.length →
      (do
        Player.start w (react w depth) s.players.length
        if (← get).lights.get? light != some s.players.length then
          Player.stop w (react w depth) s.players.length : Playback α Unit) s₁ =
      Player.start w (react w depth) s.players.length s₁ := by
    intro s₁ hlights
    have hkept := (Wakes.start hw depth s₁ s.players.length).lights
    rw [bind_apply]
    cases hs : Player.start w (react w depth) s.players.length s₁ with
    | error fault s' => rfl
    | ok _ s' =>
      rw [hs, stageOf_ok, hlights] at hkept
      simp [hkept, Table.get?_set]
  cases hq : s.lights.get? light with
  | none =>
    have hfault : replacedFault? w depth s light = none := by simp [replacedFault?, hq]
    rw [hfault, replacedBy_of_none hq]
    refine Eq.trans ?_ (hstart _ rfl)
    simp only [Manager.showTimeline, addPlayer, bind_apply, get_apply, set_apply, pure_apply, hq,
      modify_apply, Manager.newPlayer]
  | some q =>
    obtain ⟨old, hold, -⟩ := h.named hq
    obtain ⟨hlen, -⟩ := List.getElem?_eq_some_iff.mp hold
    have hfault : replacedFault? w depth s light = resetFault? w depth old := by
      simp [replacedFault?, hq, hold]
    have hstop : Player.stop w (react w depth) q { s with
        players := s.players ++ [Manager.newPlayer light ts tag hearsReset]
        lights := s.lights.set light s.players.length } =
        ending (resetFault? w depth old) (stopped w depth { s with
          players := s.players ++ [Manager.newPlayer light ts tag hearsReset]
          lights := s.lights.set light s.players.length } q) :=
      Player.stop_eq_ending hw depth ((List.getElem?_append_left hlen).trans hold)
    rw [Manager.newPlayer] at hstop
    rw [hfault, replacedBy_of_some hq]
    simp only [Manager.showTimeline, addPlayer, bind_apply, get_apply, set_apply, pure_apply, hq,
      modify_apply, Manager.newPlayer, hstop]
    cases resetFault? w depth old with
    | some fault => rfl
    | none =>
      refine Eq.trans ?_ (hstart _ (by simp))
      simp only [ending, bind_apply, get_apply]

end

end Stage

lemma Playback.keepsFiled_note (strict : Prop) (event : Event α) :
    (Stage.note event).Keeps (Stage.Filed strict) :=
  fun _ h => h.of_eq rfl rfl

namespace Manager

open Stage Playback

variable [Scalar α] {strict : Prop} {w : Wiring α} (hw : w.OnlyFails)
include hw

lemma keepsFiled_showTimeline (depth : Nat) (light : String) (ts : Timeline α) (tag : String)
    (hearsReset : Bool) :
    (showTimeline w (react w depth) light ts tag hearsReset).Keeps (Filed strict) := by
  intro s h
  have hreplaced : Filed strict
      (replacedBy w depth s light (newPlayer light ts tag hearsReset)) :=
    h.replacedBy (newPlayer light ts tag hearsReset) rfl rfl w depth
  rw [showTimeline_eq_start hw h]
  cases replacedFault? w depth s light with
  | some fault => exact hreplaced
  | none =>
    refine hreplaced.of_wakes (Wakes.start hw depth _ _) ?_
    rintro p rfl
    exact ⟨newPlayer light ts tag hearsReset, h.getElem?_new light w depth _,
      by simp [Table.get?_set, newPlayer]⟩

lemma keepsFiled_stopLight (depth : Nat) (light : String) :
    (stopLight w (react w depth) light).Keeps (Filed strict) := by
  intro s h
  simp only [stopLight, bind_apply, get_apply]
  cases hq : s.lights.get? light with
  | none => exact h
  | some q =>
    obtain ⟨old, hold, -⟩ := h.named hq
    simp only [bind_apply, modify_apply]
    rw [Player.stop_eq_ending (s := { s with lights := s.lights.erase light }) hw depth hold,
      stageOf_ending]
    exact h.erase hq w depth

/-- Taking all lights off show keeps the listing strict if no listener fails at a reset. -/
lemma keepsFiled_stopAll (hquiet : strict → w.QuietResets) (depth : Nat) :
    (stopAll w (react w depth)).Keeps (Filed strict) := by
  intro s h
  have hwakes : Wakes (fun _ => False) { s with lights := {} } _ :=
    Wakes.stops hw depth (s.lights.entries.map (·.2)) { s with lights := {} }
  simp only [stopAll, bind_apply, get_apply, modify_apply]
  refine ⟨fun hp => ?_, fun hstrict {p player} hp hrun => ?_⟩
  · rw [hwakes.lights] at hp
    simp [Table.get?] at hp
  -- whatever ran was listed, and so was stopped
  · rw [forM_stop_eq (hquiet hstrict), stageOf_ok] at hp
    obtain ⟨hnot, hold⟩ := running_of_foldl_stopPlayer hp hrun
    have hentry := Table.mem_entries_of_get? (h.listed hstrict hold hrun)
    exact absurd (List.mem_map.mpr ⟨_, hentry, rfl⟩) hnot

lemma keepsFiled_announceBlank (depth : Nat) (tag : String) :
    (announceBlank w (react w depth) tag).Keeps (Filed strict) := by
  intro s h
  simp only [announceBlank, bind_apply, note_apply]
  rw [react_eq_ending (hw.resets tag 1), stageOf_ending]
  exact h.of_eq rfl rfl

lemma keepsFiled_startLight (depth : Nat) (light : String) (code : Option String) (tag : String)
    (hearsReset : Bool) :
    (startLight w (react w depth) light code tag hearsReset).Keeps (Filed strict) := by
  unfold startLight
  split
  · exact keeps_throw _
  · refine (keepsFiled_stopLight hw depth light).bind fun _ => ?_
    cases hearsReset with
    | true => exact (keepsFiled_announceBlank hw depth tag).bind fun _ => keeps_pure _
    | false => exact keeps_pure _
  · exact (keepsFiled_showTimeline hw depth light _ tag hearsReset).bind fun _ => keeps_pure _

end Manager

namespace Stage

open Playback

variable [Scalar α] {strict : Prop} {w : Wiring α} (hw : w.OnlyFails)
include hw

/-- What can be asked of the lights on show keeps the listing, strictly so if no listener fails at a
reset while all of them are taken off show. -/
lemma keepsFiled_perform (depth : Nat) (caller : Option Nat) {action : Action}
    (hlighting : action.IsLighting) (hquiet : strict → action = .stopAll → w.QuietResets) :
    (perform w depth caller action).Keeps (Filed strict) := by
  cases depth with
  | zero => exact keeps_throw _
  | succ depth =>
    cases action with
    | fail fault => exact hlighting.elim
    | start => exact hlighting.elim
    | stop => exact hlighting.elim
    | startLight light code tag hearsReset =>
      exact (Manager.keepsFiled_startLight hw depth light code tag hearsReset).bind
        fun shown => keepsFiled_note _ _
    | stopLight light => exact Manager.keepsFiled_stopLight hw depth light
    | stopAll => exact Manager.keepsFiled_stopAll hw (fun hstrict => hquiet hstrict rfl) depth

lemma filed_after {s : Stage α} (hsound : Sound ⟨[], s⟩) (h : Filed strict s) (limits : Limits)
    {operation : Operation α} (hlighting : operation.Asks Action.IsLighting)
    (hquiet : strict → operation = .act .stopAll → w.QuietResets) :
    Filed strict (s.after w operation limits) := by
  cases operation with
  | act action =>
    have hperform : (perform w (limits.depth + 1) (some 0) action).Keeps (Filed strict) :=
      keepsFiled_perform hw _ _ hlighting fun hstrict haction => hquiet hstrict (haction ▸ rfl)
    rw [after_eq_stageOf]
    exact stageOf_noting (Filed strict) (hperform s h) fun _ _ h => h.of_eq rfl rfl
  | advance time =>
    rw [after_advance]
    have hwakes : Wakes (fun _ => False) s _ :=
      Wakes.runDue hw limits.depth hsound (s.clock + time) limits.firings
    exact (h.of_wakes hwakes fun _ => False.elim).of_eq rfl rfl
  | fire t =>
    rcases after_fire w limits s t with hnothing | ⟨timer, -, -, hfired⟩
    · rw [hnothing]
      exact h.of_eq rfl rfl
    · rw [hfired]
      have hwakes : Wakes (fun _ => False) s _ := Wakes.firedOne hw limits.depth hsound t timer
      exact h.of_wakes hwakes fun _ => False.elim

/-- Along every run the lights that are listed have players of their own. -/
lemma filed_run {s : Stage α} (hsound : Sound ⟨[], s⟩) (h : Filed strict s) (limits : Limits)
    {operations : List (Operation α)}
    (hlighting : ∀ operation ∈ operations, operation.Asks Action.IsLighting)
    (hquiet : strict → .act .stopAll ∈ operations → w.QuietResets) :
    Filed strict (s.run w limits operations) := by
  induction operations generalizing s with
  | nil => exact h
  | cons operation operations ih =>
    refine ih (sound_after hw hsound limits operation)
      (filed_after hw hsound h limits (hlighting operation (by simp)) ?_)
      (fun other hother => hlighting other (by simp [hother])) ?_
    · rintro hstrict rfl
      exact hquiet hstrict (by simp)
    · exact fun hstrict hmem => hquiet hstrict (by simp [hmem])

end Stage

end Seamark
