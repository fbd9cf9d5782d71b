import Seamark.Proofs.Double.Order
import Seamark.Proofs.Playback.Runs

/-!
# The timer that is due first

Of the timers that are due at a time, the one runs that is due first, and of those that are due
together the one that was set first.  This depends on the order of times alone.  What the order must
be like holds of doubles as of rationals, for the times that a clock comes to (`OrderedTimes`).
-/

namespace Seamark

variable {α : Type} [Scalar α]

/-! ### Times -/

/-- The times of a clock that starts at zero and to which time is added. -/
inductive IsTime : α → Prop
  /-- The start. -/
  | zero : IsTime (0.0 : α)
  /-- A later time. -/
  | add {x : α} (hx : IsTime x) (y : α) : IsTime (x + y)

/-- Times up to some target are in order. Numbers that are not, as undefined ones, are below no
target. -/
class OrderedTimes (α : Type) [Scalar α] : Prop where
  /-- No time is before itself. -/
  lt_irrefl (x : α) : ¬ x < x
  /-- What is before a time is before all that this is before. -/
  lt_trans {x y z : α} : x < y → y < z → x < z
  /-- What is before a time is before all that is not before this and has come. -/
  lt_of_lt_of_not_lt {x y z target : α} : z ≤ target → x < y → ¬ z < y → x < z
  /-- Two times of a clock that have come are one if neither is before the other. -/
  eq_of_not_lt {x y target : α} : IsTime x → IsTime y → x ≤ target → y ≤ target →
    ¬ x < y → ¬ y < x → x = y
  /-- Of two times that are equal neither is before the other. -/
  not_lt_of_beq {x y : α} : (x == y) = true → ¬ x < y ∧ ¬ y < x

instance : OrderedTimes Rat where
  lt_irrefl := fun x => lt_irrefl x
  lt_trans := fun h h' => lt_trans h h'
  lt_of_lt_of_not_lt := fun _ h h' => lt_of_lt_of_le h (not_lt.mp h')
  eq_of_not_lt := fun _ _ _ _ h h' => le_antisymm (not_lt.mp h') (not_lt.mp h)
  not_lt_of_beq := fun h => by
    obtain rfl := eq_of_beq h
    exact ⟨lt_irrefl _, lt_irrefl _⟩

/-- A time of a clock is never the negative zero, which has the place of zero in the order. -/
lemma IsTime.ne_negative_zero {x : Float} (hx : IsTime x) :
    x.toModel.unpack ≠ .zero .negative := by
  induction hx with
  | zero =>
    have hzero : (0.0 : Float).toModel.unpack = .zero .positive := by rfl
    rw [hzero]
    exact fun h => by cases h
  | add _ y ih => exact Double.add_ne_negative_zero ih y

instance : OrderedTimes Float where
  lt_irrefl := fun x h => lt_irrefl _ (Double.lt_iff_rank.mp h).2.2
  lt_trans := fun h h' => by
    obtain ⟨hx, -, hxy⟩ := Double.lt_iff_rank.mp h
    obtain ⟨-, hz, hyz⟩ := Double.lt_iff_rank.mp h'
    exact Double.lt_iff_rank.mpr ⟨hx, hz, hxy.trans hyz⟩
  lt_of_lt_of_not_lt := fun hz h h' => by
    have hnumber := Double.ne_notANumber_of_le hz
    obtain ⟨hx, hy, hxy⟩ := Double.lt_iff_rank.mp h
    refine Double.lt_iff_rank.mpr ⟨hx, hnumber, hxy.trans_le (not_lt.mp fun hlt => ?_)⟩
    exact h' (Double.lt_iff_rank.mpr ⟨hnumber, hy, hlt⟩)
  eq_of_not_lt := fun hx hy hxtarget hytarget h h' => by
    have hnumber := Double.ne_notANumber_of_le hxtarget
    have hnumber' := Double.ne_notANumber_of_le hytarget
    have hrank := le_antisymm
      (not_lt.mp fun hlt => h' (Double.lt_iff_rank.mpr ⟨hnumber', hnumber, hlt⟩))
      (not_lt.mp fun hlt => h (Double.lt_iff_rank.mpr ⟨hnumber, hnumber', hlt⟩))
    exact Double.eq_of_unpack_eq hnumber (Double.eq_of_rank_eq hnumber hnumber'
      ⟨hx.ne_negative_zero, hy.ne_negative_zero⟩ hrank)
  not_lt_of_beq := fun h => by
    have hrank := Double.rank_eq_of_beq h
    exact ⟨fun hlt => (Double.lt_iff_rank.mp hlt).2.2.ne hrank,
      fun hlt => (Double.lt_iff_rank.mp hlt).2.2.ne hrank.symm⟩

/-- A clock that has come to a time goes on to a later one as if it had not stopped. -/
lemma greater_greater [OrderedTimes α] {x y z target : α} (hy : IsTime y) (hz : IsTime z)
    (hytarget : y ≤ target) (hztarget : z ≤ target) (hyz : ¬ z < y) :
    greater (greater x y) z = greater x z := by
  unfold greater
  by_cases hxy : x < y
  · have hxz : x < z := OrderedTimes.lt_of_lt_of_not_lt hztarget hxy hyz
    rw [if_pos hxy, if_pos hxz]
    split
    case isTrue => rfl
    case isFalse hnot => exact OrderedTimes.eq_of_not_lt hy hz hytarget hztarget hnot hyz
  · rw [if_neg hxy]

namespace Stage

/-! ### The timer that is due first -/

section

variable {target : α} {timers : List (Timer α)} {timer other : Timer α} {t n : Nat}

/-- An entry that comes before another one is not due later. -/
lemma not_lt_of_comesBefore [OrderedTimes α] {a b : Timer α × Nat}
    (h : comesBefore a b = true) : ¬ b.1.due < a.1.due := by
  simp only [comesBefore, Bool.or_eq_true, Bool.and_eq_true, decide_eq_true_eq] at h
  rcases h with hlt | ⟨hbeq, -⟩
  · exact fun hgt => OrderedTimes.lt_irrefl _ (OrderedTimes.lt_trans hlt hgt)
  · exact (OrderedTimes.not_lt_of_beq hbeq).2

/-- Of some entries none is due before the one that is chosen. -/
lemma not_lt_chosen [OrderedTimes α] {entries : List (Timer α × Nat)} {first best : Timer α × Nat}
    (htarget : ∀ entry ∈ first :: entries, entry.1.due ≤ target)
    (hbest : entries.foldl (fun best entry => match best with
      | none => some entry
      | some b => if comesBefore entry b then some entry else some b) (some first) = some best) :
    ∀ entry ∈ first :: entries, ¬ entry.1.due < best.1.due := by
  induction entries generalizing first with
  | nil =>
    obtain rfl := Option.some.inj hbest
    intro entry hentry
    rw [List.mem_singleton.mp hentry]
    exact OrderedTimes.lt_irrefl _
  | cons next entries ih =>
    rw [List.foldl_cons] at hbest
    dsimp only at hbest
    intro entry hentry hlt
    have hnext := htarget next (by simp)
    have hfirst := htarget first (by simp)
    split at hbest
    case isTrue hbefore =>
      -- what comes next is chosen over the first entry, which is not due before it
      have hrest := ih (fun e he => htarget e (List.mem_cons_of_mem _ he)) hbest
      rcases List.mem_cons.mp hentry with rfl | hentry
      · exact not_lt_of_comesBefore hbefore
          (OrderedTimes.lt_of_lt_of_not_lt hnext hlt (hrest next (by simp)))
      · exact hrest entry hentry hlt
    case isFalse hbefore =>
      have hrest := ih (fun e he => htarget e (by
        rcases List.mem_cons.mp he with rfl | he
        · simp
        · simp [he])) hbest
      rcases List.mem_cons.mp hentry with rfl | hentry
      · exact hrest entry (by simp) hlt
      rcases List.mem_cons.mp hentry with rfl | hentry
      · have hearlier := OrderedTimes.lt_of_lt_of_not_lt hfirst hlt (hrest first (by simp))
        exact hbefore (by simp [comesBefore, hearlier])
      · exact hrest entry (List.mem_cons_of_mem _ hentry) hlt

lemma foldl_ne_none {entries : List (Timer α × Nat)} (first : Timer α × Nat) :
    entries.foldl (fun best entry => match best with
      | none => some entry
      | some b => if comesBefore entry b then some entry else some b) (some first) ≠ none := by
  induction entries generalizing first with
  | nil => simp
  | cons next entries ih =>
    rw [List.foldl_cons]
    dsimp only
    split
    · exact ih next
    · exact ih first

/-- A pending timer whose time has come is among those that can be chosen. -/
lemma mem_due (hother : timers[n]? = some other) (hpending : other.state = .pending)
    (hdue : other.due ≤ target) : (other, n) ∈ timers.zipIdx.filter fun entry =>
      entry.1.state = .pending && entry.1.due ≤ target :=
  List.mem_filter.mpr ⟨List.mem_zipIdx_iff_getElem?.mpr hother, by simp [hpending, hdue]⟩

/-- The timer that runs next is due no later than any other one that is due. -/
lemma not_lt_of_nextDue? [OrderedTimes α] (hnext : nextDue? target timers = some (timer, t))
    (hother : timers[n]? = some other) (hpending : other.state = .pending)
    (hdue : other.due ≤ target) : ¬ other.due < timer.due := by
  have hmem := mem_due hother hpending hdue
  have htarget : ∀ entry ∈ timers.zipIdx.filter fun entry =>
      entry.1.state = .pending && entry.1.due ≤ target, entry.1.due ≤ target := by
    intro entry hentry
    have := (List.mem_filter.mp hentry).2
    simp only [Bool.and_eq_true, decide_eq_true_eq] at this
    exact this.2
  unfold nextDue? at hnext
  generalize (timers.zipIdx.filter fun entry =>
    entry.1.state = .pending && entry.1.due ≤ target) = entries at hmem htarget hnext
  cases entries with
  | nil => simp at hmem
  | cons first entries => exact not_lt_chosen htarget hnext (other, n) hmem

/-- There is no timer to run if and only if none is due. -/
lemma nextDue?_eq_none_iff :
    nextDue? target timers = none ↔ ∀ (n : Nat) (other : Timer α), timers[n]? = some other →
      other.state = .pending → ¬ other.due ≤ target := by
  constructor
  · intro hnone n other hother hpending hdue
    have hmem := mem_due hother hpending hdue
    unfold nextDue? at hnone
    generalize (timers.zipIdx.filter fun entry =>
      entry.1.state = .pending && entry.1.due ≤ target) = entries at hmem hnone
    cases entries with
    | nil => simp at hmem
    | cons first entries => exact foldl_ne_none first hnone
  · intro hnot
    cases hnext : nextDue? target timers with
    | none => rfl
    | some entry =>
      obtain ⟨ht, hpending, hdue⟩ := nextDue?_eq_some hnext
      exact absurd hdue (hnot _ _ ht hpending)

end

end Stage

end Seamark
