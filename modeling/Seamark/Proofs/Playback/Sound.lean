import Seamark.Proofs.Playback.Moves

/-!
# One chain of timers for each player

A timer remembers the generation of its player for which it was armed. No timer is ahead of its
player, a timer that was called off is behind it, and a pending timer is the one that its running
player remembers, armed for the length of the segment shown. Between the opening and the closing
of its current turn a running player has no pending timer, at any other time it has exactly one.
This is kept by every move, so it holds of every run.
-/

namespace Seamark

variable {α : Type}

/-- A pending timer is the one that moves a player on. -/
structure Timer.Drives (timer : Timer α) (t : Nat) (player : Player α) : Prop where
  /-- The player runs. -/
  running : player.running = true
  /-- The player remembers the timer. -/
  remembered : player.timer = some t
  /-- The timer was armed in the current generation. -/
  generation : timer.generation = player.generation
  /-- The timer was armed for the length of the segment shown. -/
  interval : ∃ segment, player.timeline[player.index]? = some segment ∧
    timer.interval = segment.duration

/-- A turn of a player in a generation is among the open ones. -/
def IsOpen (turns : List (Turn α)) (p generation : Nat) : Prop :=
  ∃ turn ∈ turns, turn.player = p ∧ turn.generation = generation

lemma not_isOpen_nil (p generation : Nat) : ¬ IsOpen ([] : List (Turn α)) p generation := by
  rintro ⟨turn, hturn, -⟩
  simp at hturn

/-- What holds of a player, its timers and its open turns. -/
structure SoundPlayer (turns : List (Turn α)) (timers : List (Timer α)) (p : Nat)
    (player : Player α) : Prop where
  /-- No timer is ahead of the player. -/
  notAhead : ∀ {t : Nat} {timer : Timer α}, timers[t]? = some timer → timer.player = p →
    timer.generation ≤ player.generation
  /-- A timer that was called off is behind the player. -/
  cancelled : ∀ {t : Nat} {timer : Timer α}, timers[t]? = some timer → timer.player = p →
    timer.state = .cancelled → timer.generation < player.generation
  /-- A pending timer moves the player on. -/
  pending : ∀ {t : Nat} {timer : Timer α}, timers[t]? = some timer → timer.player = p →
    timer.state = .pending → timer.Drives t player ∧ ¬ IsOpen turns p player.generation
  /-- The timer that the player remembers is its own. -/
  remembered : ∀ {t : Nat}, player.timer = some t →
    ∃ timer : Timer α, timers[t]? = some timer ∧ timer.player = p
  /-- Outside of its current turn, a running player has a pending timer. -/
  armed : player.running = true → ¬ IsOpen turns p player.generation →
    ∃ (t : Nat) (timer : Timer α),
      timers[t]? = some timer ∧ timer.player = p ∧ timer.state = .pending
  /-- A running player shows a segment of its timeline. -/
  inRange : player.running = true → player.index < player.timeline.length
  /-- No open turn is ahead of the player, and its current turn is about the segment shown. -/
  opened : ∀ {turn : Turn α}, turn ∈ turns → turn.player = p →
    turn.generation ≤ player.generation ∧
      (player.running = true → turn.generation = player.generation →
        player.timeline[player.index]? = some turn.segment)

/-- What holds of a stage at every moment. -/
structure Sound (m : Scene α) : Prop where
  /-- Every timer is that of a player. -/
  owner : ∀ {t : Nat} {timer : Timer α}, m.stage.timers[t]? = some timer →
    timer.player < m.stage.players.length
  /-- Every open turn is that of a player. -/
  turnOwner : ∀ {turn : Turn α}, turn ∈ m.turns → turn.player < m.stage.players.length
  /-- A player has no two open turns in one generation. -/
  distinct : m.turns.Pairwise fun turn turn' =>
    turn.player = turn'.player → turn.generation ≠ turn'.generation
  /-- Every player is sound. -/
  player : ∀ {p : Nat} {player : Player α}, m.stage.players[p]? = some player →
    SoundPlayer m.turns m.stage.timers p player

/-! ### What other players do -/

/-- Two lists of timers hold the same timers of a player. -/
def SameTimers (p : Nat) (timers timers' : List (Timer α)) : Prop :=
  ∀ (t : Nat) (timer : Timer α), timer.player = p →
    (timers'[t]? = some timer ↔ timers[t]? = some timer)

/-- Two lists of turns hold the same turns of a player. -/
def SameTurns (p : Nat) (turns turns' : List (Turn α)) : Prop :=
  ∀ turn : Turn α, turn.player = p → (turn ∈ turns' ↔ turn ∈ turns)

namespace SameTimers

variable {p t : Nat} {timers : List (Timer α)} {timer timer' : Timer α}

lemma refl (p : Nat) (timers : List (Timer α)) : SameTimers p timers timers :=
  fun _ _ _ => Iff.rfl

lemma set (ht : timers[t]? = some timer) (hp : timer.player ≠ p) (hp' : timer'.player ≠ p) :
    SameTimers p timers (timers.set t timer') := by
  intro t' other hother
  rw [List.getElem?_set]
  grind

lemma append (hp : timer.player ≠ p) : SameTimers p timers (timers ++ [timer]) := by
  intro t' other hother
  rw [List.getElem?_append]
  grind

end SameTimers

namespace SameTurns

variable {p : Nat} {turns : List (Turn α)} {turn : Turn α}

lemma refl (p : Nat) (turns : List (Turn α)) : SameTurns p turns turns :=
  fun _ _ => Iff.rfl

lemma cons (hp : turn.player ≠ p) : SameTurns p turns (turn :: turns) := by
  intro other hother
  grind

lemma tail (hp : turn.player ≠ p) : SameTurns p (turn :: turns) turns := by
  intro other hother
  grind

lemma isOpen_iff {turns' : List (Turn α)} (h : SameTurns p turns turns') (generation : Nat) :
    IsOpen turns' p generation ↔ IsOpen turns p generation := by
  unfold IsOpen
  grind [SameTurns]

end SameTurns

/-- A player is sound whatever happens to the timers and turns of others. -/
lemma SoundPlayer.frame {turns turns' : List (Turn α)} {timers timers' : List (Timer α)} {p : Nat}
    {player : Player α} (h : SoundPlayer turns timers p player)
    (htimers : SameTimers p timers timers') (hturns : SameTurns p turns turns') :
    SoundPlayer turns' timers' p player where
  notAhead ht hp := h.notAhead ((htimers _ _ hp).mp ht) hp
  cancelled ht hp := h.cancelled ((htimers _ _ hp).mp ht) hp
  pending ht hp hpending := by
    rw [hturns.isOpen_iff]
    exact h.pending ((htimers _ _ hp).mp ht) hp hpending
  remembered ht := by
    obtain ⟨timer, htimer, hp⟩ := h.remembered ht
    exact ⟨timer, (htimers _ _ hp).mpr htimer, hp⟩
  armed hrun hopen := by
    rw [hturns.isOpen_iff] at hopen
    obtain ⟨t, timer, ht, hp, hpending⟩ := h.armed hrun hopen
    exact ⟨t, timer, (htimers _ _ hp).mpr ht, hp, hpending⟩
  inRange := h.inRange
  opened hturn hp := h.opened ((hturns _ hp).mp hturn) hp

/-! ### Stopping -/

namespace Timer

@[simp] lemma calledOff_player (timer : Timer α) : timer.calledOff.player = timer.player := by
  unfold calledOff
  split <;> rfl

@[simp] lemma calledOff_generation (timer : Timer α) :
    timer.calledOff.generation = timer.generation := by
  unfold calledOff
  split <;> rfl

lemma calledOff_not_pending (timer : Timer α) : timer.calledOff.state ≠ .pending := by
  unfold calledOff
  split
  · simp
  · assumption

end Timer

namespace SoundPlayer

variable {turns : List (Turn α)} {timers : List (Timer α)} {p q : Nat} {player : Player α}

/-- A timer after its player called off the one that it remembers. -/
lemma exists_of_callOff {t : Nat} {timer : Timer α}
    (ht : (player.callOff timers)[t]? = some timer) :
    ∃ old, timers[t]? = some old ∧ timer.player = old.player ∧
      timer.generation = old.generation ∧ (player.timer = some t → timer.state ≠ .pending) ∧
      (player.timer ≠ some t → timer = old) := by
  rw [Player.getElem?_callOff] at ht
  split at ht
  case isTrue htimer =>
    rw [Option.map_eq_some_iff] at ht
    obtain ⟨old, hold, rfl⟩ := ht
    exact ⟨old, hold, old.calledOff_player, old.calledOff_generation,
      fun _ => old.calledOff_not_pending, fun hne => absurd htimer hne⟩
  case isFalse htimer =>
    exact ⟨timer, ht, rfl, rfl, fun h => absurd h htimer, fun _ => rfl⟩

/-- A stopped player is sound: its timers are all behind it and none of them is pending. -/
lemma halted (h : SoundPlayer turns timers p player) :
    SoundPlayer turns (player.callOff timers) p player.halted where
  notAhead ht hp := by
    obtain ⟨old, hold, hplayer, hgen, -, -⟩ := exists_of_callOff ht
    have hle := h.notAhead hold (hplayer ▸ hp)
    rw [hgen]
    exact hle.trans (Nat.le_succ _)
  cancelled ht hp _ := by
    obtain ⟨old, hold, hplayer, hgen, -, -⟩ := exists_of_callOff ht
    have hle := h.notAhead hold (hplayer ▸ hp)
    rw [hgen]
    exact Nat.lt_succ_of_le hle
  pending {t timer} ht hp hpending := by
    obtain ⟨old, hold, hplayer, -, hoff, hsame⟩ := exists_of_callOff ht
    by_cases htimer : player.timer = some t
    · exact absurd hpending (hoff htimer)
    · obtain rfl := hsame htimer
      exact absurd (h.pending hold hp hpending).1.remembered htimer
  remembered ht := by simp [Player.halted] at ht
  armed hrun := by simp [Player.halted] at hrun
  inRange hrun := by simp [Player.halted] at hrun
  opened hturn hp := by
    obtain ⟨hle, -⟩ := h.opened hturn hp
    exact ⟨hle.trans (Nat.le_succ _), fun hrun => by simp [Player.halted] at hrun⟩

/-- Other players do not notice that a player called off its timer. -/
lemma sameTimers_callOff (h : SoundPlayer turns timers p player) (hpq : p ≠ q) :
    SameTimers q timers (player.callOff timers) := by
  intro t timer htimer
  rw [Player.getElem?_callOff]
  split
  case isTrue ht =>
    obtain ⟨own, hown, hp⟩ := h.remembered ht
    have hother : own.player ≠ q := fun hq => hpq (hp.symm.trans hq)
    grind [Timer.calledOff_player]
  case isFalse => exact Iff.rfl

end SoundPlayer

namespace Sound

variable {turns turns' : List (Turn α)} {s s' : Stage α} {p : Nat} {player player' : Player α}

/-- A change of one player, its timers and its turns keeps a stage sound if the player is sound
afterwards. -/
lemma update (h : Sound ⟨turns, s⟩) (hp : s.players[p]? = some player)
    (hplayers : s'.players = s.players.set p player')
    (htimers : ∀ q, p ≠ q → SameTimers q s.timers s'.timers)
    (hturns : ∀ q, p ≠ q → SameTurns q turns turns')
    (hdistinct : turns'.Pairwise fun turn turn' =>
      turn.player = turn'.player → turn.generation ≠ turn'.generation)
    (hplayer : SoundPlayer turns' s'.timers p player') : Sound ⟨turns', s'⟩ := by
  obtain ⟨hlen, -⟩ := List.getElem?_eq_some_iff.mp hp
  refine ⟨fun {t timer} ht => ?_, fun {turn} hturn => ?_, hdistinct, fun {q other} hq => ?_⟩
  -- a timer or a turn is one of the changed player, or it was there before
  · simp only [hplayers, List.length_set]
    by_cases hown : p = timer.player
    · exact hown ▸ hlen
    · exact h.owner ((htimers _ hown t timer rfl).mp ht)
  · simp only [hplayers, List.length_set]
    by_cases hown : p = turn.player
    · exact hown ▸ hlen
    · exact h.turnOwner ((hturns _ hown turn rfl).mp hturn)
  · simp only [hplayers] at hq
    by_cases hpq : p = q
    · subst hpq
      rw [List.getElem?_set_self hlen, Option.some.injEq] at hq
      exact hq ▸ hplayer
    · rw [List.getElem?_set_ne hpq] at hq
      exact (h.player hq).frame (htimers q hpq) (hturns q hpq)

/-- Stopping a player keeps a stage sound. -/
lemma stopPlayer (h : Sound ⟨turns, s⟩) (p : Nat) : Sound ⟨turns, s.stopPlayer p⟩ := by
  cases hp : s.players[p]? with
  | none => rwa [Stage.stopPlayer, hp]
  | some player =>
    rw [Stage.stopPlayer, hp]
    exact h.update hp rfl (fun q hpq => (h.player hp).sameTimers_callOff hpq)
      (fun q _ => .refl q turns) h.distinct (h.player hp).halted

end Sound

/-! ### Turns -/

namespace SoundPlayer

variable {turns : List (Turn α)} {timers : List (Timer α)} {p t : Nat} {player : Player α}
  {segment : Segment α} {timer : Timer α} {turn : Turn α}

/-- A stopped player that starts is sound: its turn is open and no timer of it is pending. -/
lemma begun (h : SoundPlayer turns timers p player) (hrun : player.running = false)
    (hseg : player.timeline[0]? = some segment) :
    SoundPlayer (⟨p, player.generation + 1, segment⟩ :: turns) timers p player.begun where
  notAhead ht hp := (h.notAhead ht hp).trans (Nat.le_succ _)
  cancelled ht hp _ := Nat.lt_succ_of_le (h.notAhead ht hp)
  pending ht hp hpending := by
    have hrunning := (h.pending ht hp hpending).1.running
    rw [hrun] at hrunning
    exact absurd hrunning (by simp)
  remembered ht := h.remembered ht
  armed _ hopen := absurd ⟨_, List.mem_cons_self, rfl, rfl⟩ hopen
  inRange _ := (List.getElem?_eq_some_iff.mp hseg).1
  opened {turn} hturn hp := by
    rcases List.mem_cons.mp hturn with rfl | hold
    · exact ⟨le_rfl, fun _ _ => hseg⟩
    · have hle := (h.opened hold hp).1
      refine ⟨hle.trans (Nat.le_succ _), fun _ hgen => ?_⟩
      simp only [Player.begun] at hgen
      omega

/-- The timer that moves a player on is the one that it remembers, and it is pending. -/
lemma drives_of_current (h : SoundPlayer turns timers p player) (ht : timers[t]? = some timer)
    (hp : timer.player = p) (hstate : timer.state ≠ .fired)
    (hgen : player.generation = timer.generation) :
    timer.state = .pending ∧ timer.Drives t player := by
  cases hs : timer.state with
  | pending => exact ⟨rfl, (h.pending ht hp hs).1⟩
  | cancelled => exact absurd (h.cancelled ht hp hs) (by omega)
  | fired => exact absurd hs hstate

/-- A timer after one of them ran. -/
lemma exists_of_fired {t' : Nat} {other : Timer α} (ht : timers[t]? = some timer)
    (hother : (timers.set t { timer with state := .fired })[t']? = some other) :
    t' = t ∧ other = { timer with state := .fired } ∨ t' ≠ t ∧ timers[t']? = some other := by
  rw [List.getElem?_set] at hother
  grind

lemma notAhead_of_fired (h : SoundPlayer turns timers p player) (ht : timers[t]? = some timer)
    {t' : Nat} {other : Timer α}
    (hother : (timers.set t { timer with state := .fired })[t']? = some other)
    (hown : other.player = p) : other.generation ≤ player.generation := by
  rcases exists_of_fired ht hother with ⟨-, rfl⟩ | ⟨-, hold⟩
  · have hle := h.notAhead ht (show timer.player = p from hown)
    exact hle
  · exact h.notAhead hold hown

lemma cancelled_of_fired (h : SoundPlayer turns timers p player) (ht : timers[t]? = some timer)
    {t' : Nat} {other : Timer α}
    (hother : (timers.set t { timer with state := .fired })[t']? = some other)
    (hown : other.player = p) (hcancelled : other.state = .cancelled) :
    other.generation < player.generation := by
  rcases exists_of_fired ht hother with ⟨-, rfl⟩ | ⟨-, hold⟩
  · simp at hcancelled
  · exact h.cancelled hold hown hcancelled

lemma remembered_of_fired (h : SoundPlayer turns timers p player) (ht : timers[t]? = some timer)
    (t' : Nat) (hremembered : player.timer = some t') :
    ∃ other, (timers.set t { timer with state := .fired })[t']? = some other ∧
      other.player = p := by
  obtain ⟨own, hown, hplayer⟩ := h.remembered hremembered
  by_cases htt : t = t'
  · subst htt
    obtain ⟨hlen, -⟩ := List.getElem?_eq_some_iff.mp ht
    rw [ht, Option.some.injEq] at hown
    exact ⟨_, List.getElem?_set_self hlen, hown ▸ hplayer⟩
  · exact ⟨own, by rw [List.getElem?_set_ne htt, hown], hplayer⟩

/-- A running player that moves on is sound: the timer that moved it was the only pending one. -/
lemma moved (h : SoundPlayer [] timers p player) (ht : timers[t]? = some timer)
    (hp : timer.player = p) (hstate : timer.state ≠ .fired)
    (hgen : player.generation = timer.generation)
    (hseg : player.timeline[player.nextIndex]? = some segment) :
    SoundPlayer [⟨p, timer.generation, segment⟩] (timers.set t { timer with state := .fired }) p
      player.moved where
  notAhead := h.notAhead_of_fired ht
  cancelled := h.cancelled_of_fired ht
  pending {t' other} hother hown hpending := by
    rcases exists_of_fired ht hother with ⟨-, rfl⟩ | ⟨hne, hold⟩
    · simp at hpending
    -- both timers would be the one that the player remembers
    · have hremembered := (h.drives_of_current ht hp hstate hgen).2.remembered
      have hother' := (h.pending hold hown hpending).1.remembered
      rw [hremembered, Option.some.injEq] at hother'
      exact absurd hother'.symm hne
  remembered := h.remembered_of_fired ht _
  armed _ hopen := absurd ⟨_, List.mem_cons_self, rfl, hgen.symm⟩ hopen
  inRange _ := (List.getElem?_eq_some_iff.mp hseg).1
  opened {turn} hturn _ := by
    rw [List.mem_singleton] at hturn
    subst hturn
    exact ⟨hgen.ge, fun _ _ => hseg⟩

/-- A timer that runs too late changes nothing about the player. -/
lemma late (h : SoundPlayer turns timers p player) (ht : timers[t]? = some timer)
    (hcurrent : ¬ (player.running = true ∧ player.generation = timer.generation)) :
    SoundPlayer turns (timers.set t { timer with state := .fired }) p player where
  notAhead := h.notAhead_of_fired ht
  cancelled := h.cancelled_of_fired ht
  pending {t' other} hother hown hpending := by
    rcases exists_of_fired ht hother with ⟨-, rfl⟩ | ⟨-, hold⟩
    · simp at hpending
    · exact h.pending hold hown hpending
  remembered := h.remembered_of_fired ht _
  armed hrun hopen := by
    obtain ⟨t', other, hother, hown, hpending⟩ := h.armed hrun hopen
    -- the pending timer is of the current generation, so it is not the one that ran
    have hne : t ≠ t' := by
      rintro rfl
      rw [ht, Option.some.injEq] at hother
      subst hother
      exact hcurrent ⟨hrun, (h.pending ht hown hpending).1.generation.symm⟩
    exact ⟨t', other, by rw [List.getElem?_set_ne hne, hother], hown, hpending⟩
  inRange := h.inRange
  opened := h.opened

/-- A timer after another one was armed. -/
lemma exists_of_append {t' : Nat} {other new : Timer α}
    (hother : (timers ++ [new])[t']? = some other) :
    t' = timers.length ∧ other = new ∨ timers[t']? = some other := by
  rw [List.getElem?_append] at hother
  grind

/-- A player that arms a timer at the end of its turn is sound, as no other timer of it is
pending. -/
lemma armedAt (h : SoundPlayer (turn :: turns) timers turn.player player)
    (hrun : player.running = true) (hgen : player.generation = turn.generation)
    (hclosed : ¬ IsOpen turns turn.player turn.generation) (due : α) :
    SoundPlayer turns
      (timers ++ [{ due := due, interval := turn.segment.duration, player := turn.player,
                    generation := turn.generation }])
      turn.player { player with timer := some timers.length } where
  notAhead {t' other} hother hown := by
    rcases exists_of_append hother with ⟨-, rfl⟩ | hold
    · exact hgen.ge
    · exact h.notAhead hold hown
  cancelled {t' other} hother hown hcancelled := by
    rcases exists_of_append hother with ⟨-, rfl⟩ | hold
    · simp at hcancelled
    · exact h.cancelled hold hown hcancelled
  pending {t' other} hother hown hpending := by
    rcases exists_of_append hother with ⟨rfl, rfl⟩ | hold
    · have hshown := (h.opened List.mem_cons_self rfl).2 hrun hgen.symm
      exact ⟨⟨hrun, rfl, hgen.symm, turn.segment, hshown, rfl⟩, by rwa [hgen]⟩
    -- while the turn is open, the player has no pending timer
    · have hopen : IsOpen (turn :: turns) turn.player player.generation :=
        ⟨turn, List.mem_cons_self, rfl, hgen.symm⟩
      exact absurd hopen (h.pending hold hown hpending).2
  remembered {t'} hremembered := by
    rw [Option.some.injEq] at hremembered
    subst hremembered
    exact ⟨_, List.getElem?_concat_length, rfl⟩
  armed _ _ := ⟨timers.length, _, List.getElem?_concat_length, rfl, rfl⟩
  inRange := h.inRange
  opened hturn hp := h.opened (List.mem_cons_of_mem _ hturn) hp

/-- A player that has left a turn is sound without it. -/
lemma left (h : SoundPlayer (turn :: turns) timers p player)
    (hcurrent : turn.player = p →
      ¬ (player.running = true ∧ player.generation = turn.generation)) :
    SoundPlayer turns timers p player := by
  -- the turn that is left does not count as a current one
  have hopen : player.running = true →
      (IsOpen (turn :: turns) p player.generation ↔ IsOpen turns p player.generation) := by
    intro hrun
    constructor
    · rintro ⟨other, hother, hp, hgen⟩
      rcases List.mem_cons.mp hother with rfl | hold
      · exact absurd ⟨hrun, hgen.symm⟩ (hcurrent hp)
      · exact ⟨other, hold, hp, hgen⟩
    · rintro ⟨other, hother, hp, hgen⟩
      exact ⟨other, List.mem_cons_of_mem _ hother, hp, hgen⟩
  exact
    { h with
      pending := fun ht hp hpending => by
        have hdrives := h.pending ht hp hpending
        rwa [hopen hdrives.1.running] at hdrives
      armed := fun hrun hclosed => h.armed hrun (by rwa [hopen hrun])
      opened := fun hturn hp => h.opened (List.mem_cons_of_mem _ hturn) hp }

/-- A player that was just made is sound, as nothing is its own yet. -/
lemma fresh (hfresh : player.IsFresh)
    (htimers : ∀ {t : Nat} {timer : Timer α}, timers[t]? = some timer → timer.player ≠ p)
    (hturns : ∀ {turn : Turn α}, turn ∈ turns → turn.player ≠ p) :
    SoundPlayer turns timers p player where
  notAhead ht hp := absurd hp (htimers ht)
  cancelled ht hp _ := absurd hp (htimers ht)
  pending ht hp _ := absurd hp (htimers ht)
  remembered ht := by simp [hfresh.2.1] at ht
  armed hrun := by simp [hfresh.1] at hrun
  inRange hrun := by simp [hfresh.1] at hrun
  opened hturn hp := absurd hp (hturns hturn)

end SoundPlayer

/-! ### Every move keeps a stage sound -/

variable [Scalar α]

/-- Whatever a stage does in one move, it stays sound. -/
theorem Move.sound {asked : Action → Prop} {m m' : Scene α} (hmove : Move asked m m')
    (h : Sound m) : Sound m' := by
  cases hmove with
  | stopped turns s p => exact h.stopPlayer p
  | @begun turns s p player segment hp hrun hseg =>
    have hplayer := h.player hp
    refine h.update hp rfl (fun q _ => .refl q _) (fun q hpq => .cons hpq) ?_
      (hplayer.begun hrun hseg)
    -- the generation of the new turn is ahead of those of all open ones
    refine List.pairwise_cons.mpr ⟨fun turn hturn hp => ?_, h.distinct⟩
    have hle := (hplayer.opened hturn hp.symm).1
    simp only
    omega
  | @moved s t timer player segment ht hstate hp hrun hgen hseg =>
    exact h.update hp rfl (fun q hpq => .set ht hpq hpq) (fun q hpq => .cons hpq)
      (List.pairwise_singleton _ _) ((h.player hp).moved ht rfl hstate hgen hseg)
  | @late turns s t timer ht hcurrent =>
    have hlen := h.owner ht
    have hp := List.getElem?_eq_getElem hlen
    refine h.update hp (Stage.set_player_self hp).symm (fun q hpq => .set ht hpq hpq)
      (fun q _ => .refl q _) h.distinct ((h.player hp).late ht ?_)
    exact fun hc => hcurrent ⟨_, hp, hc.1, hc.2⟩
  | @armed turns s turn player hp hrun hgen =>
    have hdistinct := List.pairwise_cons.mp h.distinct
    refine h.update hp rfl (fun q hpq => .append hpq) (fun q hpq => .tail hpq) hdistinct.2 ?_
    refine (h.player hp).armedAt hrun hgen ?_ _
    -- the player has no other open turn in this generation
    rintro ⟨other, hother, hplayer, hsame⟩
    exact hdistinct.1 other hother hplayer.symm hsame.symm
  | @left turns s turn hcurrent =>
    refine ⟨h.owner, fun hturn => h.turnOwner (List.mem_cons_of_mem _ hturn),
      (List.pairwise_cons.mp h.distinct).2, fun {p player} hp => (h.player hp).left ?_⟩
    rintro rfl hc
    exact hcurrent ⟨player, hp, hc.1, hc.2⟩
  | noted turns s _ _ => exact ⟨h.owner, h.turnOwner, h.distinct, h.player⟩
  | ticked turns s clock => exact ⟨h.owner, h.turnOwner, h.distinct, h.player⟩
  | relit turns s lights => exact ⟨h.owner, h.turnOwner, h.distinct, h.player⟩
  | @added turns s player hfresh _ =>
    refine ⟨fun ht => ?_, fun hturn => ?_, h.distinct, fun {p other} hp => ?_⟩
    · simpa using (h.owner ht).trans (Nat.lt_succ_self _)
    · simpa using (h.turnOwner hturn).trans (Nat.lt_succ_self _)
    · rw [List.getElem?_append] at hp
      by_cases hlen : p < s.players.length
      · rw [if_pos hlen] at hp
        exact h.player hp
      -- the number is new, so no timer and no turn can be about it
      · rw [if_neg hlen] at hp
        obtain ⟨rfl⟩ : other = player := by
          have := List.mem_of_getElem? hp
          simpa using this
        exact .fresh hfresh (fun ht hown => hlen (hown ▸ h.owner ht))
          (fun hturn hown => hlen (hown ▸ h.turnOwner hturn))

/-- Along every run a stage stays sound. -/
theorem Path.sound {asked : Action → Prop} {m m' : Scene α} (hpath : Path asked m m')
    (h : Sound m) : Sound m' := by
  induction hpath with
  | refl => exact h
  | tail _ hmove ih => exact hmove.sound ih

/-! ### Between operations -/

/-- The timer of a number is a pending one of the player of a number. -/
def Stage.IsPendingOf (s : Stage α) (p t : Nat) : Prop :=
  ∃ timer, s.timers[t]? = some timer ∧ timer.player = p ∧ timer.state = .pending

namespace Sound

omit [Scalar α]

variable {s : Stage α} {p t : Nat} {player : Player α}

/-- When no turn is open, a running player has exactly one pending timer. -/
lemma existsUnique_pending (h : Sound ⟨[], s⟩) (hp : s.players[p]? = some player)
    (hrun : player.running = true) : ∃! t, s.IsPendingOf p t := by
  obtain ⟨t, timer, ht, hown, hpending⟩ := (h.player hp).armed hrun (not_isOpen_nil p _)
  have hthis := ((h.player hp).pending ht hown hpending).1
  refine ⟨t, ⟨timer, ht, hown, hpending⟩, ?_⟩
  -- every pending timer is the one that the player remembers
  rintro t' ⟨other, ht', hown', hpending'⟩
  have hother := ((h.player hp).pending ht' hown' hpending').1
  have hsame := hother.remembered.symm.trans hthis.remembered
  exact Option.some.inj hsame

/-- A player that does not run has no pending timer. -/
lemma not_pending (h : Sound ⟨[], s⟩) (hp : s.players[p]? = some player)
    (hstopped : player.running = false) (t : Nat) : ¬ s.IsPendingOf p t := by
  rintro ⟨timer, ht, hown, hpending⟩
  have hrun := ((h.player hp).pending ht hown hpending).1.running
  rw [hstopped] at hrun
  exact absurd hrun (by simp)

end Sound

end Seamark
