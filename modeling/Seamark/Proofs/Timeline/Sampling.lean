import Mathlib
import Seamark.Timeline.Basic

/-!
# The segment shown at a time

With exact times, the segment shown at a position of a cycle is the one between whose start and
end the position lies. Played in a loop, segment number `i` starts at the sum of the first `i`
durations, taken cyclically (`startOf`), and at a time the segment is shown that started last.
-/

namespace Seamark.Timeline

/-! ### Rational numbers as scalars -/

lemma zero_rat : (0.0 : Rat) = 0 := by
  norm_num

/-- The sum of rational numbers is their sum. -/
lemma sumOf_rat (xs : List Rat) : sumOf xs = xs.sum := by
  have hfold : sumOf xs = xs.foldl (fun a b : Rat => a + b) (0.0 : Rat) := rfl
  rw [hfold, zero_rat, List.sum_eq_foldl]

lemma total_rat (ts : Timeline Rat) : ts.total = (ts.map (·.duration)).sum :=
  sumOf_rat _

/-- The remainder of a division whose quotient is known. -/
lemma modulo_eq {time cycle : Rat} {q : Int} (hcycle : 0 < cycle) (hlo : q * cycle ≤ time)
    (hhi : time < (q + 1) * cycle) : Scalar.modulo time cycle = time - q * cycle := by
  -- the quotient is cut off, also below zero
  have hfloor : (time / cycle).floor = q := by
    refine le_antisymm (Int.lt_add_one_iff.mp ?_) (Rat.le_floor_iff.mpr ?_)
    · rw [Rat.floor_lt_iff, div_lt_iff₀ hcycle]
      push_cast
      exact hhi
    · rwa [le_div_iff₀ hcycle]
  have hmodulo : Scalar.modulo time cycle = time - cycle * (time / cycle).floor := rfl
  rw [hmodulo, hfloor, mul_comm]

lemma locate?_cons_rat (position elapsed : Rat) (index : Nat) (s : Segment Rat)
    (ts : Timeline Rat) :
    locate? position elapsed index (s :: ts) =
      if position < elapsed + s.duration then some (index, s)
      else locate? position (elapsed + s.duration) (index + 1) ts :=
  rfl

/-! ### Starts of segments -/

/-- The duration of segment number `i` of the endless loop. -/
def durationAt (ts : Timeline Rat) (i : Nat) : Rat :=
  (ts[i % ts.length]?.map (·.duration)).getD 0

/-- The time at which segment number `i` of the endless loop starts: the sum of the durations of the
segments before it. -/
def startOf (ts : Timeline Rat) : Nat → Rat
  | 0 => 0
  | i + 1 => startOf ts i + durationAt ts i

variable {ts : Timeline Rat}

lemma durationAt_of_getElem? {i : Nat} {segment : Segment Rat}
    (h : ts[i % ts.length]? = some segment) : ts.durationAt i = segment.duration := by
  simp [durationAt, h]

lemma durationAt_of_lt {i : Nat} (h : i < ts.length) : ts.durationAt i = ts[i].duration := by
  simp [durationAt, Nat.mod_eq_of_lt h, h]

/-- Up to the end of the first cycle, a start is a sum of durations from the first one. -/
lemma startOf_eq_sum_take {i : Nat} (h : i ≤ ts.length) :
    ts.startOf i = ((ts.take i).map (·.duration)).sum := by
  induction i with
  | zero => simp [startOf]
  | succ i ih =>
    have hlt : i < ts.length := h
    rw [startOf, ih (by omega), durationAt_of_lt hlt, List.take_succ_eq_append_getElem hlt]
    simp only [List.map_append, List.map_cons, List.map_nil, List.sum_append, List.sum_singleton]

lemma startOf_length : ts.startOf ts.length = ts.total := by
  rw [startOf_eq_sum_take le_rfl, List.take_length, total_rat]

lemma startOf_add_length (i : Nat) : ts.startOf (i + ts.length) = ts.startOf i + ts.total := by
  induction i with
  | zero => simp [startOf, startOf_length]
  | succ i ih =>
    rw [Nat.succ_add, startOf, startOf, ih, durationAt, durationAt, Nat.add_mod_right]
    ring

/-- The starts of every cycle are those of the first one, later by the cycles before it. -/
lemma startOf_add_cycles (ts : Timeline Rat) (q i : Nat) :
    ts.startOf (i + q * ts.length) = q * ts.total + ts.startOf i := by
  induction q with
  | zero => simp
  | succ q ih =>
    have hcycle : i + (q + 1) * ts.length = i + q * ts.length + ts.length := by ring
    rw [hcycle, startOf_add_length, ih]
    push_cast
    ring

variable (hpos : ∀ segment ∈ ts, 0 < segment.duration)
include hpos

lemma durationAt_pos (hne : ts ≠ []) (i : Nat) : 0 < ts.durationAt i := by
  have hlt : i % ts.length < ts.length := Nat.mod_lt _ (List.length_pos_of_ne_nil hne)
  simp only [durationAt, List.getElem?_eq_getElem hlt, Option.map_some, Option.getD_some]
  exact hpos _ (List.getElem_mem hlt)

lemma startOf_strictMono (hne : ts ≠ []) : StrictMono ts.startOf :=
  strictMono_nat_of_lt_succ fun i => by
    have := durationAt_pos hpos hne i
    rw [startOf]
    linarith

/-- At a time between two starts, the segments that have started are those up to the first one. -/
lemma startOf_le_iff (hne : ts ≠ []) {time : Rat} {m : Nat} (hlo : ts.startOf m ≤ time)
    (hhi : time < ts.startOf (m + 1)) (i : Nat) : ts.startOf i ≤ time ↔ i ≤ m := by
  have hmono := startOf_strictMono hpos hne
  constructor
  · exact fun hi => Nat.lt_succ_iff.mp (hmono.lt_iff_lt.mp (hi.trans_lt hhi))
  · exact fun hi => (hmono.monotone hi).trans hlo

omit hpos in
/-- The segment that is located is the one between whose start and end the position lies. -/
lemma locate?_eq (hnonneg : ∀ segment ∈ ts, 0 ≤ segment.duration) {position elapsed : Rat} {k : Nat}
    (hk : k < ts.length) (hlo : elapsed + ((ts.take k).map (·.duration)).sum ≤ position)
    (hhi : position < elapsed + ((ts.take (k + 1)).map (·.duration)).sum) (index : Nat) :
    locate? position elapsed index ts = some (index + k, ts[k]) := by
  induction ts generalizing elapsed index k with
  | nil => simp at hk
  | cons s ts ih =>
    rw [locate?_cons_rat]
    cases k with
    | zero =>
      have hfirst : position < elapsed + s.duration := by simpa using hhi
      rw [if_pos hfirst]
      rfl
    | succ k =>
      simp only [List.take_succ_cons, List.map_cons, List.sum_cons] at hlo hhi
      -- the segments between do not end before the first one does
      have hsum : 0 ≤ ((ts.take k).map (·.duration)).sum := by
        refine List.sum_nonneg fun duration hduration => ?_
        obtain ⟨segment, hsegment, rfl⟩ := List.mem_map.mp hduration
        exact hnonneg segment (List.mem_cons_of_mem _ (List.mem_of_mem_take hsegment))
      have hlater : ¬ position < elapsed + s.duration := by linarith
      rw [if_neg hlater, ih
        (fun segment hsegment => hnonneg segment (List.mem_cons_of_mem _ hsegment))
        (by simpa using hk) (by linarith) (by linarith)]
      simp [Nat.add_assoc, Nat.add_comm 1 k]

omit hpos in
/-- The segment shown at a time is the one between whose start and end the time within the cycle
lies. -/
lemma activeAt?_eq (hnonneg : ∀ segment ∈ ts, 0 ≤ segment.duration) (hcycle : 0 < ts.total)
    {time : Rat} {k : Nat} (hk : k < ts.length)
    (hlo : ts.startOf k ≤ Scalar.modulo time ts.total)
    (hhi : Scalar.modulo time ts.total < ts.startOf (k + 1)) :
    ts.activeAt? time = some (k, ts[k]) := by
  rw [startOf_eq_sum_take hk.le] at hlo
  rw [startOf_eq_sum_take hk] at hhi
  have hlocate : locate? (Scalar.modulo time ts.total) (0.0 : Rat) 0 ts = some (k, ts[k]) := by
    rw [zero_rat]
    simpa using locate?_eq hnonneg hk (by simpa using hlo) (by simpa using hhi) 0
  have hpositive : (0.0 : Rat) < ts.total := by rwa [zero_rat]
  obtain ⟨last, hlast⟩ : ∃ last, ts.getLast? = some last :=
    ⟨_, List.getLast?_eq_some_getLast (List.ne_nil_of_length_pos (by omega))⟩
  simp only [activeAt?, hlast]
  rw [if_pos hpositive, hlocate]
  rfl

/-- The segment shown after some cycles. -/
lemma activeAt?_of_cycles (hne : ts ≠ []) {time : Rat} {q r : Nat} (hr : r < ts.length)
    (hlo : q * ts.total + ts.startOf r ≤ time) (hhi : time < q * ts.total + ts.startOf (r + 1)) :
    ts.activeAt? time = some (r, ts[r]) := by
  have hmono := startOf_strictMono hpos hne
  have hcycle : 0 < ts.total := by
    rw [← startOf_length]
    exact hmono (List.length_pos_of_ne_nil hne)
  have hfirst : 0 ≤ ts.startOf r := hmono.monotone (Nat.zero_le r)
  have hwithin : ts.startOf (r + 1) ≤ ts.total := by
    rw [← startOf_length]
    exact hmono.monotone hr
  have hmodulo : Scalar.modulo time ts.total = time - ((q : Int) : Rat) * ts.total := by
    refine modulo_eq hcycle ?_ ?_ <;> rw [Int.cast_natCast] <;> linarith
  rw [Int.cast_natCast] at hmodulo
  refine activeAt?_eq (fun segment hsegment => (hpos segment hsegment).le) hcycle hr ?_ ?_ <;>
    rw [hmodulo] <;> linarith

/-- Played in a loop, the segment shown at a time is the one that started last. -/
lemma activeAt?_of_started (hne : ts ≠ []) {time : Rat} {m : Nat} (hlo : ts.startOf m ≤ time)
    (hhi : time < ts.startOf (m + 1)) :
    ∃ segment, ts[m % ts.length]? = some segment ∧
      ts.activeAt? time = some (m % ts.length, segment) := by
  -- number `m` is segment `m % n` after `m / n` whole cycles of `n` segments
  have hlt : m % ts.length < ts.length := Nat.mod_lt _ (List.length_pos_of_ne_nil hne)
  have hstart := startOf_add_cycles ts (m / ts.length) (m % ts.length)
  have hend := startOf_add_cycles ts (m / ts.length) (m % ts.length + 1)
  rw [Nat.mod_add_div'] at hstart
  rw [Nat.add_right_comm, Nat.mod_add_div'] at hend
  exact ⟨ts[m % ts.length], List.getElem?_eq_getElem hlt,
    activeAt?_of_cycles hpos hne hlt (hstart ▸ hlo) (hend ▸ hhi)⟩

end Seamark.Timeline
