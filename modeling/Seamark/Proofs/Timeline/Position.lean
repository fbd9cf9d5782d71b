import Seamark.Proofs.Timeline.Sampling

/-!
# The position of a time in its cycle

With exact times and durations that are not negative, every position of a cycle lies within exactly
one segment, the one whose end is the first to come after it; a segment without a length has no
positions.  The segment shown at a time, before or after the start, is the one within which its
position lies, so sampling repeats itself with every cycle.  Whatever the durations are, there is
nothing to show only if there is no segment.
-/

namespace Seamark.Timeline

/-! ### What is shown of any timeline -/

section

variable {α : Type} [Scalar α] {ts : Timeline α} {segment : Segment α} {i : Nat}

/-- A segment that is located is the one of its index, counted from the first index. -/
lemma getElem?_of_locate? {position elapsed : α} {index : Nat}
    (h : locate? position elapsed index ts = some (i, segment)) :
    ∃ k, i = index + k ∧ ts[k]? = some segment := by
  induction ts generalizing elapsed index with
  | nil => cases h
  | cons s ts ih =>
    rw [locate?] at h
    split at h
    case isTrue =>
      cases h
      exact ⟨0, rfl, rfl⟩
    case isFalse =>
      obtain ⟨k, rfl, hk⟩ := ih h
      exact ⟨k + 1, by omega, hk⟩

lemma activeAt?_eq_none_iff (time : α) : ts.activeAt? time = none ↔ ts = [] := by
  rw [activeAt?]
  cases hlast : ts.getLast? with
  | none => simpa using hlast
  | some last =>
    have hne : ts ≠ [] := by
      rintro rfl
      cases hlast
    simp [hne]

/-- What is shown is the segment of the index that is given with it. -/
lemma getElem?_of_activeAt? {time : α} (h : ts.activeAt? time = some (i, segment)) :
    ts[i]? = some segment := by
  rw [activeAt?] at h
  cases hlast : ts.getLast? with
  | none =>
    rw [hlast] at h
    cases h
  | some last =>
    rw [hlast] at h
    dsimp only at h
    -- either a segment was located, or the last one is shown
    generalize (if 0.0 < ts.total then Scalar.modulo time ts.total else 0.0) = position at h
    cases hlocate : locate? position 0.0 0 ts with
    | some found =>
      rw [hlocate] at h
      cases h
      obtain ⟨k, rfl, hk⟩ := getElem?_of_locate? hlocate
      rwa [Nat.zero_add]
    | none =>
      rw [hlocate] at h
      cases h
      rwa [← List.getLast?_eq_getElem?]

end

/-! ### Positions of a cycle -/

/-- The time of a cycle that has passed when the segment of an index starts. -/
def timeBefore (ts : Timeline Rat) (i : Nat) : Rat :=
  ((ts.take i).map (·.duration)).sum

/-- The position in its cycle of a time. -/
def position (ts : Timeline Rat) (time : Rat) : Rat :=
  time - ts.total * ⌊time / ts.total⌋

/-- A position of a cycle lies between the start and the end of the segment of an index; the end is
the start of the next one. -/
def IsWithin (ts : Timeline Rat) (position : Rat) (i : Nat) : Prop :=
  ts.timeBefore i ≤ position ∧ position < ts.timeBefore (i + 1)

variable {ts : Timeline Rat}

lemma timeBefore_succ {i : Nat} (hi : i < ts.length) :
    ts.timeBefore (i + 1) = ts.timeBefore i + ts[i].duration := by
  rw [timeBefore, List.take_succ_eq_append_getElem hi, List.map_append, List.sum_append]
  simp [timeBefore]

lemma timeBefore_of_length_le {i : Nat} (hi : ts.length ≤ i) : ts.timeBefore i = ts.total := by
  rw [timeBefore, List.take_of_length_le hi, total_rat]

section

variable (hcycle : 0 < ts.total)
include hcycle

lemma position_nonneg (time : Rat) : 0 ≤ ts.position time := by
  have hfloor := Int.floor_le (time / ts.total)
  rw [le_div_iff₀ hcycle] at hfloor
  rw [position]
  linarith

lemma position_lt_total (time : Rat) : ts.position time < ts.total := by
  have hfloor := Int.lt_floor_add_one (time / ts.total)
  rw [div_lt_iff₀ hcycle] at hfloor
  rw [position]
  linarith

/-- Whole cycles, of the past too, do not change the position. -/
lemma position_add_cycles (time : Rat) (m : Int) :
    ts.position (time + m * ts.total) = ts.position time := by
  have hquotient : (time + m * ts.total) / ts.total = time / ts.total + m := by
    field_simp
  rw [position, position, hquotient, Int.floor_add_intCast]
  push_cast
  ring

/-- What is shown at a time is looked for at its position. -/
lemma activeAt?_of_locate? {time : Rat} {found : Nat × Segment Rat}
    (hlocate : locate? (ts.position time) 0 0 ts = some found) :
    ts.activeAt? time = some found := by
  obtain ⟨last, hlast⟩ : ∃ last, ts.getLast? = some last := by
    cases hlast : ts.getLast? with
    | some last => exact ⟨last, rfl⟩
    | none =>
      rw [List.getLast?_eq_none_iff] at hlast
      subst hlast
      cases hlocate
  have hpositive : (0.0 : Rat) < ts.total := by rwa [zero_rat]
  have hmodulo : Scalar.modulo time ts.total = ts.position time := rfl
  simp only [activeAt?, hlast]
  rw [if_pos hpositive, hmodulo, zero_rat, hlocate]
  rfl

end

section

variable (hnonneg : ∀ segment ∈ ts, 0 ≤ segment.duration)
include hnonneg

lemma timeBefore_mono : Monotone ts.timeBefore := by
  refine monotone_nat_of_le_succ fun i => ?_
  by_cases hi : i < ts.length
  · have hduration := hnonneg ts[i] (List.getElem_mem hi)
    rw [timeBefore_succ hi]
    linarith
  · rw [timeBefore_of_length_le (by omega), timeBefore_of_length_le (by omega)]

/-- A position does not lie within two segments: the one ends before the other starts. -/
lemma IsWithin.unique {p : Rat} {i j : Nat} (hi : ts.IsWithin p i) (hj : ts.IsWithin p j) :
    i = j := by
  have hle : ∀ {i j : Nat}, ts.IsWithin p i → ts.IsWithin p j → i ≤ j := by
    intro i j hi hj
    by_contra hlt
    have hends := timeBefore_mono hnonneg (show j + 1 ≤ i by omega)
    exact absurd (hj.2.trans_le hends) (not_lt.mpr hi.1)
  exact le_antisymm (hle hi hj) (hle hj hi)

omit hnonneg in
/-- Every position of a cycle lies within a segment: the first one that ends after it. -/
lemma exists_isWithin {p : Rat} (hp : 0 ≤ p) (hlt : p < ts.total) : ∃ i, ts.IsWithin p i := by
  have hends : ∃ i, p < ts.timeBefore (i + 1) :=
    ⟨ts.length, by rwa [timeBefore_of_length_le (by omega)]⟩
  refine ⟨Nat.find hends, ?_, Nat.find_spec hends⟩
  cases hfind : Nat.find hends with
  | zero => simpa [timeBefore] using hp
  | succ i => exact not_lt.mp (Nat.find_min hends (show i < Nat.find hends by omega))

/-- The segment within which a position lies is located there, and it has a length. -/
lemma IsWithin.locate?_eq {p : Rat} {i : Nat} (h : ts.IsWithin p i) :
    ∃ segment, ts[i]? = some segment ∧ 0 < segment.duration ∧
      locate? p 0 0 ts = some (i, segment) := by
  have hi : i < ts.length := by
    by_contra hle
    -- beyond the last segment there is nothing between start and end
    have hstart := timeBefore_of_length_le (not_lt.mp hle)
    have hend := timeBefore_of_length_le (show ts.length ≤ i + 1 by omega)
    exact absurd (h.1.trans_lt h.2) (by rw [hstart, hend]; exact lt_irrefl _)
  have hlength := h.1.trans_lt h.2
  rw [timeBefore_succ hi] at hlength
  have hlo : 0 + ts.timeBefore i ≤ p := by rw [zero_add]; exact h.1
  have hhi : p < 0 + ts.timeBefore (i + 1) := by rw [zero_add]; exact h.2
  have hlocate := Timeline.locate?_eq hnonneg hi hlo hhi 0
  rw [Nat.zero_add] at hlocate
  exact ⟨ts[i], List.getElem?_eq_getElem hi, by linarith, hlocate⟩

end

/-- **Sampling finds the segment of the position.**  If no duration is negative and the cycle has a
length, the position of every time, before or after the start, lies within exactly one segment.
This one is located, so that the last segment need not stand in for it; it has a length; and it is
shown at the time, and again after any number of cycles.  Whatever the numbers are, nothing is shown
exactly if there is no segment, and what is shown is the segment of an index of the timeline. -/
theorem activeAt?_isWithin {α : Type} [Scalar α] :
    (∀ (ts : Timeline Rat) (time : Rat), (∀ segment ∈ ts, 0 ≤ segment.duration) → 0 < ts.total →
      (∃! i, ts.IsWithin (ts.position time) i) ∧
      (∀ i, ts.IsWithin (ts.position time) i → ∃ segment, ts[i]? = some segment ∧
        0 < segment.duration ∧ locate? (ts.position time) 0 0 ts = some (i, segment) ∧
        ts.activeAt? time = some (i, segment)) ∧
      ∀ m : Int, ts.activeAt? (time + m * ts.total) = ts.activeAt? time) ∧
    ∀ (ts : Timeline α) (time : α), (ts.activeAt? time = none ↔ ts = []) ∧
      ∀ i segment, ts.activeAt? time = some (i, segment) → ts[i]? = some segment := by
  refine ⟨fun ts time hnonneg hcycle => ?_, fun ts time =>
    ⟨activeAt?_eq_none_iff time, fun i segment => getElem?_of_activeAt?⟩⟩
  obtain ⟨i, hi⟩ := exists_isWithin (position_nonneg hcycle time) (position_lt_total hcycle time)
  refine ⟨⟨i, hi, fun j hj => hj.unique hnonneg hi⟩, fun j hj => ?_, fun m => ?_⟩
  · obtain ⟨segment, hsegment, hlength, hlocate⟩ := hj.locate?_eq hnonneg
    exact ⟨segment, hsegment, hlength, hlocate, activeAt?_of_locate? hcycle hlocate⟩
  · obtain ⟨segment, -, -, hlocate⟩ := hi.locate?_eq hnonneg
    rw [activeAt?_of_locate? hcycle hlocate]
    refine activeAt?_of_locate? hcycle ?_
    rwa [position_add_cycles hcycle]

/-- A flash, a pause that was left without a length, and a longer flash. -/
def stutter : Timeline Rat :=
  [⟨true, 1 / 2, "W", 1⟩, ⟨false, 0, "W", 1⟩, ⟨true, 3 / 2, "R", 1⟩]

/-- Exactly where the pause would be, three and a half seconds before the start, the second flash is
shown. -/
theorem stutter_isWithin :
    (∀ segment ∈ stutter, 0 ≤ segment.duration) ∧ 0 < stutter.total ∧
      stutter.activeAt? (-7 / 2) = some (2, ⟨true, 3 / 2, "R", 1⟩) := by
  have hnonneg : ∀ segment ∈ stutter, 0 ≤ segment.duration := by decide +kernel
  have hcycle : 0 < stutter.total := by decide +kernel
  obtain ⟨-, hshown, -⟩ := (activeAt?_isWithin (α := Rat)).1 stutter (-7 / 2) hnonneg hcycle
  have hwithin : stutter.IsWithin (stutter.position (-7 / 2)) 2 :=
    ⟨by decide +kernel, by decide +kernel⟩
  obtain ⟨segment, hsegment, -, -, hactive⟩ := hshown 2 hwithin
  obtain rfl : ⟨true, 3 / 2, "R", 1⟩ = segment := Option.some.inj hsegment
  exact ⟨hnonneg, hcycle, hactive⟩

end Seamark.Timeline
