import Seamark.Proofs.Playback.Runs
import Seamark.Proofs.Table

/-!
# The lights on show and their players

Between operations, and whenever a listener is called, the lights on show are exactly those that
have a running player, and a running player is the one on show for its light (`Listed`). A
listener that puts lights on show or takes them off keeps this, so it holds however the calls
nest, unless they nest too deeply. What a light shows is swapped, stopped and started in one go,
before the first listener is called, so there is no moment at which a listener could see it half
done.
-/

namespace Seamark

variable {α : Type}

/-- What can be asked of the lights on show. -/
def Action.IsLighting : Action → Prop
  | .startLight .. | .stopLight _ | .stopAll => True
  | _ => False

/-- What a listener may ask of the lights on show without raising a fault: a light that it puts on
show must have a timeline. -/
def Action.IsSafe (w : Wiring α) (action : Action) : Prop :=
  action.IsLighting ∧ ∀ light code tag hearsReset, action = .startLight light code tag hearsReset →
    ∃ ts, w.timelineOf code = .ok ts

/-- The player of a number is a running one of a light. -/
def Stage.IsRunningFor (s : Stage α) (light : String) (p : Nat) : Prop :=
  ∃ player, s.players[p]? = some player ∧ player.name = light ∧ player.running = true

/-- The lights on show are exactly those that have a running player, and this player is the one on
show. -/
structure Listed (s : Stage α) : Prop where
  /-- No light is on show twice. -/
  nodup : s.lights.keys.Nodup
  /-- A running player is on show for its light. -/
  current : ∀ {p : Nat} {player : Player α}, s.players[p]? = some player →
    player.running = true → s.lights.get? player.name = some p
  /-- What is on show for a light is a running player of it. -/
  running : ∀ {light : String} {p : Nat}, s.lights.get? light = some p →
    ∃ player, s.players[p]? = some player ∧ player.name = light ∧ player.running = true

namespace Listed

variable {s s' : Stage α} {light : String} {p : Nat} {player player' : Player α}

/-- A light is on show if and only if it has a running player. -/
lemma mem_keys_iff (h : Listed s) (light : String) :
    light ∈ s.lights.keys ↔ ∃ p, s.IsRunningFor light p := by
  rw [Table.mem_keys_iff]
  constructor
  · rintro ⟨p, hp⟩
    exact ⟨p, h.running hp⟩
  · rintro ⟨p, player, hp, rfl, hrun⟩
    exact ⟨p, h.current hp hrun⟩

/-- The running player of a light is the one on show. -/
lemma isRunningFor_iff (h : Listed s) (hp : s.lights.get? light = some p) (q : Nat) :
    s.IsRunningFor light q ↔ q = p := by
  constructor
  · rintro ⟨player, hq, rfl, hrun⟩
    have hcurrent := h.current hq hrun
    rw [hp, Option.some.injEq] at hcurrent
    exact hcurrent.symm
  · rintro rfl
    exact h.running hp

/-- What matters of a player is its name and whether it runs. -/
lemma of_players_set (h : Listed s) (hp : s.players[p]? = some player)
    (hplayers : s'.players = s.players.set p player') (hlights : s'.lights = s.lights)
    (hname : player'.name = player.name) (hrun : player'.running = player.running) :
    Listed s' := by
  obtain ⟨hlen, -⟩ := List.getElem?_eq_some_iff.mp hp
  refine ⟨hlights ▸ h.nodup, fun {q other} hq hrunning => ?_, fun {light q} hq => ?_⟩
  · rw [hplayers] at hq
    rw [hlights]
    by_cases hpq : p = q
    · subst hpq
      rw [List.getElem?_set_self hlen, Option.some.injEq] at hq
      subst hq
      rw [hname]
      exact h.current hp (hrun ▸ hrunning)
    · rw [List.getElem?_set_ne hpq] at hq
      exact h.current hq hrunning
  · rw [hlights] at hq
    rw [hplayers]
    obtain ⟨other, hother, hlight, hrunning⟩ := h.running hq
    by_cases hpq : p = q
    · subst hpq
      rw [hp, Option.some.injEq] at hother
      subst hother
      exact ⟨player', List.getElem?_set_self hlen, hname.trans hlight, hrun.trans hrunning⟩
    · exact ⟨other, by rw [List.getElem?_set_ne hpq, hother], hlight, hrunning⟩

/-- Stopping a player that is not on show. -/
lemma stopPlayer (h : Listed s) (hp : ∀ light, s.lights.get? light ≠ some p) :
    Listed (s.stopPlayer p) := by
  refine ⟨by simpa using h.nodup, fun {q other} hq hrunning => ?_, fun {light q} hq => ?_⟩
  · rw [Player.stopPlayer_lights]
    by_cases hpq : p = q
    · subst hpq
      exact absurd ⟨other, hq, hrunning, rfl⟩ (Player.not_isCurrent_stopPlayer s p _)
    · rw [Player.getElem?_stopPlayer_ne hpq] at hq
      exact h.current hq hrunning
  · rw [Player.stopPlayer_lights] at hq
    obtain ⟨other, hother, hlight⟩ := h.running hq
    have hpq : p ≠ q := fun hpq => hp light (hpq ▸ hq)
    exact ⟨other, by rw [Player.getElem?_stopPlayer_ne hpq, hother], hlight⟩

/-- Taking a light off show and stopping its player. -/
lemma erase (h : Listed s) (hp : s.lights.get? light = some p) :
    Listed (Stage.stopPlayer { s with lights := s.lights.erase light } p) := by
  obtain ⟨player, hplayer, rfl, -⟩ := h.running hp
  refine ⟨by simpa using Table.nodup_keys_erase h.nodup _, fun {q other} hq hrunning => ?_,
    fun {light q} hq => ?_⟩
  · rw [Player.stopPlayer_lights, Table.get?_erase]
    by_cases hpq : p = q
    · subst hpq
      exact absurd ⟨other, hq, hrunning, rfl⟩ (Player.not_isCurrent_stopPlayer _ p _)
    · rw [Player.getElem?_stopPlayer_ne hpq] at hq
      have hcurrent := h.current hq hrunning
      rw [if_neg, hcurrent]
      intro hname
      rw [hname, hp, Option.some.injEq] at hcurrent
      exact hpq hcurrent
  · rw [Player.stopPlayer_lights, Table.get?_erase] at hq
    split at hq
    case isTrue => simp at hq
    case isFalse hne =>
      obtain ⟨other, hother, hlight, hrunning⟩ := h.running hq
      have hpq : p ≠ q := by
        rintro rfl
        rw [hplayer, Option.some.injEq] at hother
        exact hne (hlight.symm.trans (congrArg Player.name hother.symm))
      exact ⟨other, by rw [Player.getElem?_stopPlayer_ne hpq]; exact hother, hlight, hrunning⟩

/-- Putting a new player on show for a light, where the one that it replaces is stopped. -/
lemma set (h : Listed s) (hnew : s.players[p]? = none)
    (hlights : s'.lights = s.lights.set light p)
    (hp : s'.players[p]? = some player) (hname : player.name = light)
    (hrun : player.running = true)
    (hreplaced : ∀ q other, s.lights.get? light = some q → s'.players[q]? = some other →
      other.running = false)
    (hothers : ∀ q, q ≠ p → s.lights.get? light ≠ some q → s'.players[q]? = s.players[q]?) :
    Listed s' := by
  refine ⟨hlights ▸ Table.nodup_keys_set h.nodup _ _, fun {q other} hq hrunning => ?_,
    fun {light' q} hq => ?_⟩
  · rw [hlights, Table.get?_set]
    by_cases hqp : q = p
    · subst hqp
      rw [hp, Option.some.injEq] at hq
      rw [if_pos (hq ▸ hname)]
    -- a player that runs beside the new one was not replaced, so it ran and was on show before
    · have hnot : s.lights.get? light ≠ some q := by
        intro hlight
        rw [hreplaced q other hlight hq] at hrunning
        exact absurd hrunning (by simp)
      rw [hothers q hqp hnot] at hq
      have hcurrent := h.current hq hrunning
      rw [if_neg, hcurrent]
      exact fun hlight => hnot (hlight ▸ hcurrent)
  · rw [hlights, Table.get?_set] at hq
    split at hq
    case isTrue hlight =>
      rw [Option.some.injEq] at hq
      exact ⟨player, hq ▸ hp, hname.trans hlight.symm, hrun⟩
    case isFalse hne =>
      obtain ⟨other, hother, hlight, hrunning⟩ := h.running hq
      have hqp : q ≠ p := by
        rintro rfl
        rw [hnew] at hother
        simp at hother
      -- what is on show for another light was not replaced, since it has another name
      have hnot : s.lights.get? light ≠ some q := by
        intro hreplaced'
        obtain ⟨other', hother', hlight', -⟩ := h.running hreplaced'
        rw [hother, Option.some.injEq] at hother'
        exact hne (hlight.symm.trans ((congrArg Player.name hother').trans hlight'))
      exact ⟨other, by rw [hothers q hqp hnot, hother], hlight, hrunning⟩

end Listed

/-! ### What keeps the lights listed -/

/-- An end with the lights listed, or by listeners that called each other too deeply. -/
def EndsListed {β : Type} : EStateM.Result Fault (Stage α) β → Prop
  | .ok _ s => Listed s
  | .error fault _ => fault = .tooDeep

/-- A playback that keeps the lights listed and fails only by nesting too deeply. -/
def Playback.KeepsListed {β : Type} (m : Playback α β) : Prop :=
  ∀ s, Listed s → EndsListed (m s)

namespace Playback

variable {β γ : Type}

lemma keepsListed_pure (b : β) : (pure b : Playback α β).KeepsListed :=
  fun _ h => h

lemma keepsListed_note (event : Event α) : (Stage.note event).KeepsListed :=
  fun _ h => ⟨h.nodup, h.current, h.running⟩

lemma KeepsListed.bind {m : Playback α β} {f : β → Playback α γ} (hm : m.KeepsListed)
    (hf : ∀ b, (f b).KeepsListed) : (m >>= f).KeepsListed := by
  intro s h
  have hends := hm s h
  rw [bind_apply]
  cases hs : m s with
  | ok b s' =>
    rw [hs] at hends
    exact hf b s' hends
  | error fault s' =>
    rw [hs] at hends
    exact hends

lemma KeepsListed.forM {xs : List β} {f : β → Playback α Unit}
    (hf : ∀ x ∈ xs, (f x).KeepsListed) : (xs.forM f).KeepsListed := by
  induction xs with
  | nil => exact keepsListed_pure _
  | cons x xs ih =>
    show (f x >>= fun _ => xs.forM f).KeepsListed
    exact (hf x (by simp)).bind fun _ => ih fun y hy => hf y (by simp [hy])

end Playback

variable [Scalar α] {w : Wiring α} {depth : Nat} {s : Stage α}

/-- From the opening of a turn to its end the lights stay listed. -/
lemma endsListed_endTurn (hw : w.QuietResets) (turn : Turn α) {actions : List Action}
    (hreact : (Stage.react w depth (some turn.player) actions).KeepsListed) (h : Listed s) :
    EndsListed
      (Stage.endTurn w depth turn (Stage.react w depth (some turn.player) actions s)) := by
  have hends := hreact s h
  generalize Stage.react w depth (some turn.player) actions s = result at hends ⊢
  cases result with
  | ok _ s' =>
    show Listed (s'.closeTurn turn)
    by_cases hcurrent : s'.IsCurrent turn.player turn.generation
    · obtain ⟨player, hp, hrun, hgen⟩ := hcurrent
      rw [Player.closeTurn_of_current hp hrun hgen]
      exact Listed.of_players_set hends hp rfl rfl rfl rfl
    · rw [Player.closeTurn_of_not_current hcurrent]
      exact hends
  | error fault s' =>
    rw [Player.endTurn_error hw]
    exact hends

namespace Manager

open Playback Stage

lemma stopLight_eq (hw : w.QuietResets) (depth : Nat) (light : String) (s : Stage α) :
    stopLight w (react w depth) light s = match s.lights.get? light with
      | none => .ok ⟨⟩ s
      | some p => .ok ⟨⟩ (Stage.stopPlayer { s with lights := s.lights.erase light } p) := by
  simp only [stopLight, bind_apply, get_apply]
  cases s.lights.get? light with
  | none => rfl
  | some p => exact Player.stop_eq hw depth p _

lemma keepsListed_stopLight (hw : w.QuietResets) (depth : Nat) (light : String) :
    (stopLight w (react w depth) light).KeepsListed := by
  intro s h
  rw [stopLight_eq hw]
  cases hp : s.lights.get? light with
  | none => exact h
  | some p => exact h.erase hp

/-- Stopping players one after the other. -/
lemma forM_stop_eq (hw : w.QuietResets) (depth : Nat) (players : List Nat) (s : Stage α) :
    players.forM (Player.stop w (react w depth)) s = .ok ⟨⟩ (players.foldl stopPlayer s) := by
  induction players generalizing s with
  | nil => rfl
  | cons p players ih =>
    show (Player.stop w (react w depth) p >>= fun _ =>
      players.forM (Player.stop w (react w depth))) s = _
    rw [bind_apply, Player.stop_eq hw]
    exact ih (s.stopPlayer p)

omit [Scalar α] in
lemma foldl_stopPlayer_lights (players : List Nat) (s : Stage α) :
    (players.foldl stopPlayer s).lights = s.lights := by
  induction players generalizing s with
  | nil => rfl
  | cons p players ih => rw [List.foldl_cons, ih, Player.stopPlayer_lights]

omit [Scalar α] in
/-- A player that runs after some were stopped is none of them, and it ran before. -/
lemma running_of_foldl_stopPlayer {players : List Nat} {p : Nat} {player : Player α}
    (hp : (players.foldl stopPlayer s).players[p]? = some player)
    (hrun : player.running = true) : p ∉ players ∧ s.players[p]? = some player := by
  induction players generalizing s with
  | nil => exact ⟨by simp, hp⟩
  | cons q players ih =>
    obtain ⟨hnot, hold⟩ := ih hp
    by_cases hpq : q = p
    · subst hpq
      exact absurd ⟨player, hold, hrun, rfl⟩ (Player.not_isCurrent_stopPlayer s q _)
    · rw [Player.getElem?_stopPlayer_ne hpq] at hold
      exact ⟨by simp [hnot, Ne.symm hpq], hold⟩

lemma keepsListed_stopAll (hw : w.QuietResets) (depth : Nat) :
    (stopAll w (react w depth)).KeepsListed := by
  intro s h
  simp only [stopAll, bind_apply, get_apply, modify_apply, forM_stop_eq hw]
  refine ⟨?_, fun {p player} hp hrun => ?_, fun {light p} hp => ?_⟩
  · rw [foldl_stopPlayer_lights]
    exact List.nodup_nil
  -- whatever ran before was on show, and so was stopped
  · obtain ⟨hnot, hold⟩ := running_of_foldl_stopPlayer hp hrun
    have hentry := Table.mem_entries_of_get? (h.current hold hrun)
    exact absurd (List.mem_map.mpr ⟨_, hentry, rfl⟩) hnot
  · rw [foldl_stopPlayer_lights] at hp
    simp [Table.get?] at hp

lemma keepsListed_announceBlank (hw : w.QuietResets) (depth : Nat) (tag : String) :
    (announceBlank w (react w depth) tag).KeepsListed := by
  refine (keepsListed_note (.reset tag)).bind fun _ => ?_
  rw [hw]
  exact keepsListed_pure _

/-! ### Putting a light on show -/

/-- A player that was just made. -/
def newPlayer (light : String) (ts : Timeline α) (tag : String) (hearsReset : Bool) : Player α where
  name := light
  timeline := ts
  tag := tag
  hearsReset := hearsReset

/-- The stage with a new player in place of the one that a light showed before. -/
def swapped (s : Stage α) (light : String) (player : Player α) : Stage α :=
  let s' := { s with
    players := s.players ++ [player]
    lights := s.lights.set light s.players.length }
  match s.lights.get? light with
  | some q => s'.stopPlayer q
  | none => s'

omit [Scalar α] in
lemma swapped_lights (s : Stage α) (light : String) (player : Player α) :
    (swapped s light player).lights = s.lights.set light s.players.length := by
  unfold swapped
  cases s.lights.get? light with
  | none => rfl
  | some q => exact Player.stopPlayer_lights _ q

omit [Scalar α] in
lemma getElem?_swapped {light : String} {player : Player α} {p : Nat}
    (hp : s.lights.get? light ≠ some p) :
    (swapped s light player).players[p]? = (s.players ++ [player])[p]? := by
  unfold swapped
  cases hq : s.lights.get? light with
  | none => rfl
  | some q =>
    have hqp : q ≠ p := fun hqp => hp (hqp ▸ hq)
    exact Player.getElem?_stopPlayer_ne hqp _

omit [Scalar α] in
lemma not_isCurrent_swapped {light : String} {player : Player α} {p : Nat}
    (hp : s.lights.get? light = some p) (generation : Nat) :
    ¬ (swapped s light player).IsCurrent p generation := by
  unfold swapped
  rw [hp]
  exact Player.not_isCurrent_stopPlayer _ p generation

lemma showTimeline_eq (hw : w.QuietResets) (depth : Nat) (light : String) (ts : Timeline α)
    (tag : String) (hearsReset : Bool) (s : Stage α) :
    showTimeline w (react w depth) light ts tag hearsReset s =
      match Player.start w (react w depth) s.players.length
        (swapped s light (newPlayer light ts tag hearsReset)) with
      | .ok _ s' =>
        if s'.lights.get? light = some s.players.length then .ok ⟨⟩ s'
        else .ok ⟨⟩ (s'.stopPlayer s.players.length)
      | .error fault s' => .error fault s' := by
  -- at the end the new player is stopped if it is no longer on show
  have hcheck : ∀ s' : Stage α, (if (s'.lights.get? light != some s.players.length) = true
        then Player.stop w (react w depth) s.players.length else pure ()) s' =
      if s'.lights.get? light = some s.players.length then .ok ⟨⟩ s'
      else .ok ⟨⟩ (s'.stopPlayer s.players.length) := by
    intro s'
    by_cases hlight : s'.lights.get? light = some s.players.length
    · simp [hlight]
    · simp [hlight, Player.stop_eq hw]
  unfold swapped
  cases hq : s.lights.get? light with
  | none =>
    simp only [showTimeline, addPlayer, bind_apply, get_apply, set_apply, pure_apply, hq,
      modify_apply, newPlayer, hcheck]
    cases Player.start w (react w depth) s.players.length _ <;> rfl
  | some q =>
    simp only [showTimeline, addPlayer, bind_apply, get_apply, set_apply, pure_apply, hq,
      modify_apply, Player.stop_eq hw, newPlayer, hcheck]
    cases Player.start w (react w depth) s.players.length _ <;> rfl

omit [Scalar α] in
lemma get?_ne_new (h : Listed s) (light : String) :
    s.lights.get? light ≠ some s.players.length := by
  intro hp
  obtain ⟨player, hold, -⟩ := h.running hp
  rw [List.getElem?_eq_none le_rfl] at hold
  simp at hold

omit [Scalar α] in
lemma getElem?_swapped_new (h : Listed s) (light : String) (player : Player α) :
    (swapped s light player).players[s.players.length]? = some player := by
  rw [getElem?_swapped (get?_ne_new h light), List.getElem?_concat_length]

/-- When a new player announces its first segment, it is on show and the one that it replaced is
stopped. -/
lemma listed_opened (h : Listed s) {light : String} {player : Player α}
    (hname : player.name = light) (segment : Segment α) :
    Listed (((swapped s light player).stopPlayer s.players.length).beginTurn s.players.length
      player.halted segment) := by
  have hp := getElem?_swapped_new h light player
  have hbegun := getElem?_set_player (Player.getElem?_stopPlayer hp) player.halted.begun
  refine h.set (List.getElem?_eq_none le_rfl) ?_ hbegun hname rfl
    (fun q other hq hother => ?_) fun q hqp hq => ?_
  · exact (Player.stopPlayer_lights _ _).trans (swapped_lights s light player)
  · have hpq : s.players.length ≠ q := fun hpq => get?_ne_new h light (hpq ▸ hq)
    simp only [beginTurn] at hother
    rw [List.getElem?_set_ne hpq, Player.getElem?_stopPlayer_ne hpq] at hother
    by_contra hrun
    exact not_isCurrent_swapped hq _ ⟨other, hother, by simpa using hrun, rfl⟩
  · simp only [beginTurn]
    rw [List.getElem?_set_ne (Ne.symm hqp), Player.getElem?_stopPlayer_ne (Ne.symm hqp),
      getElem?_swapped hq, List.getElem?_append]
    split
    · rfl
    · rw [List.getElem?_eq_none (by simp; omega), List.getElem?_eq_none (by omega)]

section

variable (hw : w.QuietResets)
  (hpath : ∀ (p index : Nat) (player : Player α) segment,
    (react w depth (some p) (replies w player index segment)).IsPath fun _ => True)
  (hlisted : ∀ (p index : Nat) (player : Player α) segment,
    (react w depth (some p) (replies w player index segment)).KeepsListed)
include hw hpath hlisted

/-- Putting a timeline on show keeps the lights listed: when the start of the new player is over, it
runs only if it is still on show. -/
lemma keepsListed_showTimeline {ts : Timeline α} (hts : ts ≠ []) (light : String) (tag : String)
    (hearsReset : Bool) :
    (showTimeline w (react w depth) light ts tag hearsReset).KeepsListed := by
  intro s h
  obtain ⟨segment, rest, rfl⟩ := List.exists_cons_of_ne_nil hts
  rw [showTimeline_eq hw]
  have hname : (newPlayer light (segment :: rest) tag hearsReset).name = light := rfl
  have hseg : (newPlayer light (segment :: rest) tag hearsReset).timeline[0]? = some segment := rfl
  generalize newPlayer light (segment :: rest) tag hearsReset = player at hname hseg ⊢
  have hp := getElem?_swapped_new h light player
  have hbegun := getElem?_set_player (Player.getElem?_stopPlayer hp) player.halted.begun
  have hopen := listed_opened h hname segment
  let turn : Turn α := ⟨s.players.length, player.generation + 2, segment⟩
  have hends := endsListed_endTurn hw turn (hlisted _ 0 player.halted segment) hopen
  have hlater := (Player.path_endTurn hw [] turn _ (hpath _ 0 player.halted segment)).later
    (m := ⟨_, ((swapped s light player).stopPlayer s.players.length).beginTurn s.players.length
      player.halted segment⟩)
  rw [Player.start_eq hw depth hp hseg]
  generalize endTurn w depth turn _ = result at hends hlater ⊢
  cases result with
  | error fault s' => exact hends
  | ok _ s' =>
    dsimp only
    split
    · exact hends
    · refine Listed.stopPlayer hends fun other hother => ?_
      -- the player kept its name, so it is on show for no other light
      obtain ⟨shown, hshown, hlight, -⟩ := hends.running hother
      obtain ⟨new, hnew, hgrows⟩ := hlater.players hbegun
      obtain rfl : new = shown := Option.some.inj (hnew.symm.trans hshown)
      have hother' : other = light := hlight.symm.trans (hgrows.name.trans hname)
      subst hother'
      contradiction

/-- Putting a light on show, or taking it off if its notation has an empty timeline. -/
lemma keepsListed_startLight {code : Option String} {ts : Timeline α}
    (hcode : w.timelineOf code = .ok ts) (light : String) (tag : String) (hearsReset : Bool) :
    (startLight w (react w depth) light code tag hearsReset).KeepsListed := by
  unfold startLight
  rw [hcode]
  cases ts with
  | nil =>
    refine (keepsListed_stopLight hw depth light).bind fun _ => ?_
    cases hearsReset with
    | true => exact (keepsListed_announceBlank hw depth tag).bind fun _ => keepsListed_pure _
    | false => exact keepsListed_pure _
  | cons segment ts =>
    exact (keepsListed_showTimeline hw hpath hlisted (by simp) light tag hearsReset).bind
      fun _ => keepsListed_pure _

end

end Manager

/-! ### Actions and timers -/

namespace Stage

open Playback

omit [Scalar α] in
/-- Nothing is ruled out, for paths of which only what stays matters. -/
lemma asks_anything (w : Wiring α) : w.Asks fun _ => True :=
  fun _ _ _ _ _ _ => trivial

/-- Whatever a listener may safely ask keeps the lights listed, however the calls nest. -/
theorem keepsListed_perform (hw : w.QuietResets) (hasks : w.Asks (Action.IsSafe w)) (depth : Nat)
    (caller : Option Nat) {action : Action} (hsafe : action.IsSafe w) :
    (perform w depth caller action).KeepsListed := by
  induction depth generalizing caller action with
  | zero => exact fun _ _ => rfl
  | succ depth ih =>
    have hlisted : ∀ (p index : Nat) (player : Player α) segment,
        (react w depth (some p) (replies w player index segment)).KeepsListed :=
      fun p index player segment => KeepsListed.forM fun action haction =>
        ih (some p) (hasks player.tag _ index segment action haction)
    cases action with
    | fail fault => exact hsafe.1.elim
    | start => exact hsafe.1.elim
    | stop => exact hsafe.1.elim
    | startLight light code tag hearsReset =>
      obtain ⟨ts, hcode⟩ := hsafe.2 light code tag hearsReset rfl
      have hpath := isPath_replies hw (asks_anything w) depth
      have hstart := Manager.keepsListed_startLight hw
        (fun p index player segment => hpath p index player segment) hlisted hcode light tag
        hearsReset
      exact hstart.bind fun shown => keepsListed_note _
    | stopLight light => exact Manager.keepsListed_stopLight hw depth light
    | stopAll => exact Manager.keepsListed_stopAll hw depth

/-- Listeners called each other too deeply. -/
def NestedTooDeeply (s : Stage α) : Prop :=
  ∃ entry ∈ s.log, entry.event = .raised .tooDeep

omit [Scalar α] in
lemma NestedTooDeeply.later {s s' : Stage α} (h : NestedTooDeeply s) (hlater : Later s s') :
    NestedTooDeeply s' := by
  obtain ⟨entry, hentry, hevent⟩ := h
  exact ⟨entry, hlater.log.subset hentry, hevent⟩

omit [Scalar α] in
/-- A fault that is noted is in the log. -/
lemma listed_or_nested_noting {m : Playback α Unit} (h : EndsListed (m s)) :
    Listed (stageOf (noting m s)) ∨ NestedTooDeeply (stageOf (noting m s)) := by
  rw [noting, tryCatch_apply]
  cases hs : m s with
  | ok _ s' =>
    rw [hs] at h
    exact .inl h
  | error fault s' =>
    rw [hs] at h
    exact .inr ⟨⟨s'.clock, .raised fault⟩, by simp [note_apply, noted], congrArg Event.raised h⟩

/-- A timer that runs keeps the lights listed. -/
lemma listed_or_nested_firedOne (hw : w.QuietResets) (hasks : w.Asks (Action.IsSafe w))
    (hsound : Sound ⟨[], s⟩) (h : Listed s) (depth t : Nat) (timer : Timer α) :
    Listed (s.firedOne w depth t timer) ∨ NestedTooDeeply (s.firedOne w depth t timer) := by
  refine listed_or_nested_noting ?_
  rcases advance_withFired hsound w depth t timer with
    ⟨-, hadvance⟩ | ⟨player, segment, hp, -, -, -, hadvance⟩
  · rw [hadvance]
    exact ⟨h.nodup, h.current, h.running⟩
  · rw [hadvance]
    refine endsListed_endTurn hw _ (KeepsListed.forM fun action haction =>
      keepsListed_perform hw hasks depth _ (hasks player.tag _ _ _ action haction)) ?_
    have hplayers : ((s.withFired t timer).nextTurn timer.player player segment).players =
        s.players.set timer.player player.moved := rfl
    exact h.of_players_set hp hplayers rfl rfl rfl

/-- Running the timers that are due keeps the lights listed. -/
lemma listed_or_nested_runDue (hw : w.QuietResets) (hasks : w.Asks (Action.IsSafe w))
    (hsound : Sound ⟨[], s⟩) (h : Listed s ∨ NestedTooDeeply s) (depth : Nat) (target : α)
    (firings : Nat) :
    Listed (stageOf (runDue w depth target firings s)) ∨
      NestedTooDeeply (stageOf (runDue w depth target firings s)) := by
  induction firings generalizing s with
  | zero => exact h
  | succ firings ih =>
    cases hnext : nextDue? target s.timers with
    | none =>
      rw [runDue_of_none hnext]
      exact h
    | some entry =>
      have hdue := path_due hw (asks_anything w) hsound depth hnext
      rw [runDue_of_some hnext]
      refine ih (Path.sound hdue hsound) ?_
      rcases h with h | h
      · have hsound' : Sound ⟨[], { s with clock := greater s.clock entry.1.due }⟩ :=
          ⟨hsound.owner, hsound.turnOwner, hsound.distinct, hsound.player⟩
        exact listed_or_nested_firedOne hw hasks hsound' ⟨h.nodup, h.current, h.running⟩ depth
          entry.2 entry.1
      · exact .inr (h.later (Path.later hdue))

/-- What is not safe to ask for is a light whose notation has no timeline; it fails at once. -/
lemma perform_of_not_isSafe {action : Action} (hlighting : action.IsLighting)
    (hrefused : ¬ action.IsSafe w) (depth : Nat) (caller : Option Nat) (s : Stage α) :
    ∃ cause, perform w (depth + 1) caller action s = .error (.compile cause) s := by
  rw [Action.IsSafe, not_and] at hrefused
  have hcode := hrefused hlighting
  push Not at hcode
  obtain ⟨light, code, tag, hearsReset, rfl, hcode⟩ := hcode
  cases hts : w.timelineOf code with
  | ok ts => exact absurd hts (hcode ts)
  | error cause => exact ⟨cause, by simp [perform, Manager.startLight, hts]⟩

/-- Every operation keeps the lights listed. -/
lemma listed_or_nested_after (hw : w.QuietResets) (hasks : w.Asks (Action.IsSafe w))
    (hsound : Sound ⟨[], s⟩) (h : Listed s ∨ NestedTooDeeply s) (limits : Limits)
    {operation : Operation α} (hoperation : operation.Asks Action.IsLighting) :
    Listed (s.after w operation limits) ∨ NestedTooDeeply (s.after w operation limits) := by
  have hpath : Path (fun _ => True) ⟨[], s⟩ ⟨[], s.after w operation limits⟩ :=
    path_after hw (asks_anything w) hsound limits (by cases operation <;> trivial)
  rcases h with h | h
  case inr => exact .inr (h.later (Path.later hpath))
  have hnoted : ∀ event : Event α, Listed (s.noted event) :=
    fun event => ⟨h.nodup, h.current, h.running⟩
  cases operation with
  | act action =>
    rw [after_eq_stageOf]
    by_cases hsafe : action.IsSafe w
    · exact listed_or_nested_noting (keepsListed_perform hw hasks _ _ hsafe s h)
    · obtain ⟨cause, hfails⟩ := perform_of_not_isSafe hoperation hsafe limits.depth (some 0) s
      refine .inl ?_
      simpa [operate, noting, hfails, note_apply] using hnoted (.raised (.compile cause))
  | advance time =>
    rw [after_advance]
    exact (listed_or_nested_runDue hw hasks hsound (.inl h) limits.depth (s.clock + time)
      limits.firings).imp (fun h => ⟨h.nodup, h.current, h.running⟩) id
  | fire t =>
    rcases after_fire w limits s t with hnothing | ⟨timer, -, -, hfired⟩
    · rw [hnothing]
      exact .inl (hnoted .nothingToFire)
    · rw [hfired]
      exact listed_or_nested_firedOne hw hasks hsound h limits.depth t timer

/-- Every run keeps the lights listed. -/
lemma listed_or_nested_run (hw : w.QuietResets) (hasks : w.Asks (Action.IsSafe w))
    (hsound : Sound ⟨[], s⟩) (h : Listed s ∨ NestedTooDeeply s) (limits : Limits)
    {operations : List (Operation α)}
    (hoperations : ∀ operation ∈ operations, operation.Asks Action.IsLighting) :
    Listed (s.run w limits operations) ∨ NestedTooDeeply (s.run w limits operations) := by
  induction operations generalizing s with
  | nil => exact h
  | cons operation operations ih =>
    have hoperation := hoperations operation (by simp)
    have hpath : Path (fun _ => True) ⟨[], s⟩ ⟨[], s.after w operation limits⟩ :=
      path_after hw (asks_anything w) hsound limits (by cases operation <;> trivial)
    exact ih (hpath.sound hsound) (listed_or_nested_after hw hasks hsound h limits hoperation)
      fun other hother => hoperations other (by simp [hother])

/-! ### Every run of the lights on show -/

omit [Scalar α] in
lemma sound_empty (clock : α) : Sound ⟨[], ({ clock := clock } : Stage α)⟩ where
  owner ht := by simp at ht
  turnOwner hturn := by simp at hturn
  distinct := .nil
  player hp := by simp at hp

omit [Scalar α] in
lemma listed_empty (clock : α) : Listed ({ clock := clock } : Stage α) where
  nodup := List.nodup_nil
  current hp := by simp at hp
  running hp := by simp [Table.get?] at hp

/-- A light whose notation has an empty timeline is taken off show. -/
lemma startLight_of_empty (hw : w.QuietResets) {code : Option String}
    (hcode : w.timelineOf code = .ok []) (depth : Nat) (light tag : String) (hearsReset : Bool)
    (s : Stage α) : ∃ s', Manager.startLight w (react w depth) light code tag hearsReset s =
      .ok false s' ∧ light ∉ s'.lights.keys := by
  have hblank : ∀ s : Stage α, Manager.announceBlank w (react w depth) tag s =
      .ok ⟨⟩ (s.noted (.reset tag)) := by
    intro s
    simp [Manager.announceBlank, note_apply, hw _ _, react_nil]
  simp only [Manager.startLight, hcode, bind_apply, Manager.stopLight_eq hw, Table.mem_keys_iff]
  cases hlight : s.lights.get? light with
  | none => cases hearsReset <;> simp [hblank, noted, hlight]
  | some p => cases hearsReset <;> simp [hblank, noted, Table.get?_erase]

/-- **No player is orphaned or lost.** However lights are put on show and taken off, by operations
and by listeners that are called while this happens, whenever no call is in progress the lights on
show are distinct and are those that have a running player; this player is the only one of its
light, it is the one on show, and it has exactly one pending timer; and every other player is
stopped and has no pending timer. Putting a light on show whose notation has an empty timeline
takes it off show and answers so. -/
theorem run_listed (w : Wiring α) (hw : w.QuietResets) (hasks : w.Asks (Action.IsSafe w))
    (limits : Limits) (clock : α) (operations : List (Operation α))
    (hoperations : ∀ operation ∈ operations, operation.Asks Action.IsLighting)
    (hdeep : ¬ NestedTooDeeply (run w limits { clock := clock } operations)) :
    let s := run w limits { clock := clock } operations
    (s.lights.keys.Nodup ∧
      (∀ light, light ∈ s.lights.keys ↔ ∃ p, s.IsRunningFor light p) ∧
      (∀ light ∈ s.lights.keys, ∃ p, s.lights.get? light = some p ∧
        (∀ q, s.IsRunningFor light q ↔ q = p) ∧ ∃! t, s.IsPendingOf p t) ∧
      (∀ p player, s.players[p]? = some player → s.lights.get? player.name ≠ some p →
        player.running = false ∧ ∀ t, ¬ s.IsPendingOf p t)) ∧
    (∀ (s : Stage α) depth light code tag hearsReset, w.timelineOf code = .ok [] →
      ∃ s', Manager.startLight w (react w depth) light code tag hearsReset s = .ok false s' ∧
        light ∉ s'.lights.keys) := by
  intro s
  have hpath : Path (fun _ => True) ⟨[], { clock := clock }⟩ ⟨[], s⟩ :=
    path_run hw (asks_anything w) (sound_empty clock) limits
      fun operation _ => by cases operation <;> trivial
  have hsound := hpath.sound (sound_empty clock)
  -- the run starts with nothing on show and ends without having nested too deeply
  have hlisted : Listed s := (listed_or_nested_run hw hasks (sound_empty clock)
    (.inl (listed_empty clock)) limits hoperations).resolve_right hdeep
  refine ⟨⟨hlisted.nodup, hlisted.mem_keys_iff, fun light hlight => ?_, fun p player hp hnot => ?_⟩,
    fun s depth light code tag hearsReset hcode =>
      startLight_of_empty hw hcode depth light tag hearsReset s⟩
  · obtain ⟨p, hp⟩ := (Table.mem_keys_iff _ light).mp hlight
    obtain ⟨player, hplayer, -, hrun⟩ := hlisted.running hp
    exact ⟨p, hp, hlisted.isRunningFor_iff hp, hsound.existsUnique_pending hplayer hrun⟩
  · have hstopped : player.running = false := by
      by_contra hrun
      exact hnot (hlisted.current hp (by simpa using hrun))
    exact ⟨hstopped, hsound.not_pending hp hstopped⟩

/-- One listener replaces its own light at its first call, another one takes every light off show
and puts one on at its second call. -/
def crossing : Wiring Rat where
  scriptOf tag := { onStep := fun call _ _ =>
    if tag = "eager" ∧ call = 1 then [.startLight "a" (some "R") "calm" true]
    else if tag = "jealous" ∧ call = 2 then [.stopAll, .startLight "c" (some "R") "calm" true]
    else [] }
  timelineOf code := .ok (if code = some "R" then [⟨true, 1, "R", 1⟩] else [])

/-- The operations of a run in which listeners replace lights. -/
def crossingRun : List (Operation Rat) :=
  [.act (.startLight "a" (some "R") "eager" true), .act (.startLight "b" (some "R") "jealous" true),
    .advance 1, .act (.startLight "a" (some "") "calm" true)]

/-- After a run in which listeners replace lights, what is left on show has one running player
with one pending timer. -/
theorem crossing_run_listed :
    (run crossing {} { clock := 0 } crossingRun).lights.keys = ["c"] ∧
      ∃ p, (run crossing {} { clock := 0 } crossingRun).lights.get? "c" = some p ∧
        (∀ q, (run crossing {} { clock := 0 } crossingRun).IsRunningFor "c" q ↔ q = p) ∧
        ∃! t, (run crossing {} { clock := 0 } crossingRun).IsPendingOf p t := by
  have hkeys : (run crossing {} { clock := 0 } crossingRun).lights.keys = ["c"] := by
    decide +kernel
  have hasks : crossing.Asks (Action.IsSafe crossing) := by
    intro tag call index segment action haction
    have hlight : ∀ light tag, Action.IsSafe crossing (.startLight light (some "R") tag true) :=
      fun light tag => ⟨trivial, fun _ code _ _ _ => ⟨_, rfl⟩⟩
    simp only [crossing] at haction
    split at haction
    · rw [List.mem_singleton.mp haction]
      exact hlight "a" "calm"
    · split at haction
      · simp only [List.mem_cons, List.not_mem_nil, or_false] at haction
        rcases haction with rfl | rfl
        · exact ⟨trivial, fun _ _ _ _ h => by simp at h⟩
        · exact hlight "c" "calm"
      · simp at haction
  have hlog : (run crossing {} { clock := 0 } crossingRun).log.all
      (fun entry => entry.event ≠ .raised .tooDeep) = true := by decide +kernel
  have hdeep : ¬ NestedTooDeeply (run crossing {} { clock := 0 } crossingRun) := by
    rintro ⟨entry, hentry, hevent⟩
    have hnot := List.all_eq_true.mp hlog entry hentry
    simp [hevent] at hnot
  have hlisted := (run_listed crossing (fun _ _ => rfl) hasks {} 0 crossingRun
    (by simp [crossingRun, Operation.Asks, Action.IsLighting]) hdeep).1
  exact ⟨hkeys, hlisted.2.2.1 "c" (by rw [hkeys]; exact List.mem_singleton_self _)⟩

end Stage

end Seamark
