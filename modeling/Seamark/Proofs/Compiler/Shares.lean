import Mathlib
import Seamark.Proofs.Compiler.Returns
import Seamark.Proofs.Scalar
import Seamark.Proofs.Timeline.Sampling

/-!
# Pieces that share a length

With exact times, the lengths of pieces are accounted for exactly.  What is shown of some pieces and
what is left out of them make up the time that they ask for (`total_shown_add_leftOut`).  Pieces
`Shares` a length if none is negative and they add up to it, and their shown part `Fills` it up to
what is left out.
-/

namespace Seamark

variable {ps qs : Timeline Rat} {p : Segment Rat} {a b : Rat}

lemma shortest_rat : (shortest : Rat) = 1 / 10 ^ 9 := by
  norm_num [shortest]

lemma shortest_pos : (0 : Rat) < shortest := by
  norm_num [shortest_rat]

namespace Timeline

lemma total_cons (p : Segment Rat) (ps : Timeline Rat) :
    Timeline.total (p :: ps) = p.duration + ps.total := by
  simp only [total_rat, List.map_cons, List.sum_cons]

lemma total_append (ps qs : Timeline Rat) :
    Timeline.total (ps ++ qs) = ps.total + qs.total := by
  simp only [total_rat, List.map_append, List.sum_append]

lemma total_nonneg {ps : Timeline Rat} (h : ∀ p ∈ ps, 0 ≤ p.duration) : 0 ≤ ps.total := by
  rw [total_rat]
  exact List.sum_nonneg (List.forall_mem_map.mpr h)

end Timeline

/-! ### What is left out -/

/-- The pieces that take some time and are too short to be shown. -/
def leftOut (ps : Timeline Rat) : Timeline Rat :=
  ps.filter fun p => decide (0 < p.duration ∧ p.duration ≤ shortest)

/-- The time that pieces ask for.  A piece whose length is negative asks for none. -/
def askedTime (ps : Timeline Rat) : Rat :=
  (ps.map fun p => max 0 p.duration).sum

lemma mem_leftOut : p ∈ leftOut ps ↔ p ∈ ps ∧ 0 < p.duration ∧ p.duration ≤ shortest := by
  rw [leftOut, List.mem_filter, decide_eq_true_iff]

/-- What is shown and what is left out make up the time that is asked for. -/
lemma total_shown_add_leftOut (ps : Timeline Rat) :
    (shown ps).total + (leftOut ps).total = askedTime ps := by
  induction ps with
  | nil => simp [leftOut, askedTime, Timeline.total_rat]
  | cons p ps ih =>
    have hasked : askedTime (p :: ps) = max 0 p.duration + askedTime ps := rfl
    rw [hasked, ← ih, shown_cons, leftOut, List.filter_cons, ← leftOut]
    by_cases hlong : shortest < p.duration
    · have hkept : ¬ (0 < p.duration ∧ p.duration ≤ shortest) := fun h => not_lt.mpr h.2 hlong
      rw [if_pos hlong, decide_eq_false hkept, max_eq_right (shortest_pos.trans hlong).le,
        Timeline.total_cons]
      simp only [Bool.false_eq_true, if_false]
      ring
    · rw [if_neg hlong]
      by_cases hpos : 0 < p.duration
      · rw [decide_eq_true ⟨hpos, not_lt.mp hlong⟩, if_pos rfl, max_eq_right hpos.le,
          Timeline.total_cons]
        ring
      · have hnone : ¬ (0 < p.duration ∧ p.duration ≤ shortest) := fun h => hpos h.1
        rw [decide_eq_false hnone, max_eq_left (not_lt.mp hpos)]
        simp

lemma total_leftOut_nonneg (ps : Timeline Rat) : 0 ≤ (leftOut ps).total :=
  Timeline.total_nonneg fun _ hp => (mem_leftOut.mp hp).2.1.le

lemma total_leftOut_le (ps : Timeline Rat) : (leftOut ps).total ≤ ps.length * shortest := by
  have hshort : (leftOut ps).total ≤ (leftOut ps).length • (shortest : Rat) := by
    rw [Timeline.total_rat, ← List.length_map (·.duration)]
    refine List.sum_le_card_nsmul _ _ fun time htime => ?_
    obtain ⟨p, hp, rfl⟩ := List.mem_map.mp htime
    exact (mem_leftOut.mp hp).2.2
  have hlength : ((leftOut ps).length : Rat) ≤ ps.length := by
    exact_mod_cast List.length_filter_le _ ps
  rw [nsmul_eq_mul] at hshort
  exact hshort.trans (mul_le_mul_of_nonneg_right hlength shortest_pos.le)

lemma total_shown_nonneg (ps : Timeline Rat) : 0 ≤ (shown ps).total :=
  Timeline.total_nonneg fun _ hp => (shortest_pos.trans (mem_shown.mp hp).2).le

lemma askedTime_append (ps qs : Timeline Rat) :
    askedTime (ps ++ qs) = askedTime ps + askedTime qs := by
  rw [askedTime, List.map_append, List.sum_append, ← askedTime, ← askedTime]

lemma askedTime_repeated (n : Nat) (ps : Timeline Rat) :
    askedTime (repeated n ps) = n * askedTime ps := by
  induction n with
  | zero => simp [repeated, askedTime]
  | succ n ih =>
    rw [repeated_succ, askedTime_append, ih]
    push_cast
    ring

lemma total_repeated (n : Nat) (ps : Timeline Rat) :
    Timeline.total (repeated n ps) = n * ps.total := by
  induction n with
  | zero => simp [repeated, Timeline.total_rat]
  | succ n ih =>
    rw [repeated_succ, Timeline.total_append, ih]
    push_cast
    ring

lemma countP_repeated (n : Nat) (ps : Timeline Rat) :
    (repeated n ps).countP (·.lit) = n * ps.countP (·.lit) := by
  induction n with
  | zero => simp [repeated]
  | succ n ih =>
    rw [repeated_succ, List.countP_append, ih]
    ring

/-! ### Pieces that share a length -/

/-- Pieces that are not negative and add up to a length. -/
structure Shares (ps : Timeline Rat) (length : Rat) : Prop where
  nonneg : ∀ p ∈ ps, 0 ≤ p.duration
  total_eq : ps.total = length

/-- What is shown of some pieces lasts as long as it should, but for the pieces that are too short
to be shown. -/
structure Fills (ps : Timeline Rat) (length : Rat) : Prop where
  /-- No more than the shortest length is lost with each piece. -/
  lower : length - ps.length * shortest ≤ (shown ps).total
  /-- Nothing is added. -/
  upper : (shown ps).total ≤ length
  /-- Nothing is lost unless a piece of some length is left out. -/
  all_shown : (∀ p ∈ ps, 0 < p.duration → shortest < p.duration) → (shown ps).total = length

namespace Shares

lemma nil : Shares [] 0 where
  nonneg := by simp
  total_eq := by simp [Timeline.total_rat]

lemma single {p : Segment Rat} (hp : 0 ≤ p.duration) : Shares [p] p.duration where
  nonneg := by simpa using hp
  total_eq := by simp [Timeline.total_rat]

lemma append (hp : Shares ps a) (hq : Shares qs b) : Shares (ps ++ qs) (a + b) where
  nonneg := by
    intro p hmem
    rcases List.mem_append.mp hmem with hmem | hmem
    · exact hp.nonneg p hmem
    · exact hq.nonneg p hmem
  total_eq := by rw [Timeline.total_append, hp.total_eq, hq.total_eq]

/-- Pieces that share runs of one length share all of it. -/
lemma flatten {runs : List (Timeline Rat)} (h : ∀ run ∈ runs, Shares run a) :
    Shares runs.flatten (runs.length * a) := by
  induction runs with
  | nil => simpa using nil
  | cons run runs ih =>
    have hlength : ((run :: runs).length : Rat) * a = a + runs.length * a := by
      rw [List.length_cons]
      push_cast
      ring
    rw [List.flatten_cons, hlength]
    exact (h run List.mem_cons_self).append (ih fun other hother =>
      h other (List.mem_cons_of_mem run hother))

lemma repeated (h : Shares ps a) (n : Nat) : Shares (repeated n ps) (n * a) := by
  have hall : ∀ run ∈ List.replicate n ps, Shares run a :=
    fun run hrun => List.eq_of_mem_replicate hrun ▸ h
  have hflatten := flatten hall
  rwa [List.length_replicate] at hflatten

/-- A flash and the darkness after it share the time of both. -/
lemma lit_unlit {on whole : Rat} (hon : 0 ≤ on) (hwhole : on ≤ whole) (color : String) :
    Shares [lit on color, unlit (whole - on) color] whole := by
  have hsum : whole = on + (whole - on) := by ring
  have hshares : Shares ([lit on color] ++ [unlit (whole - on) color]) (on + (whole - on)) :=
    (single hon).append (single (sub_nonneg.mpr hwhole))
  rwa [← hsum] at hshares

/-- What is shown and what is left out of pieces make up the length that they share. -/
lemma shown_add_leftOut (h : Shares ps a) : (shown ps).total + (leftOut ps).total = a := by
  have hasked : askedTime ps = ps.total := by
    rw [askedTime, Timeline.total_rat]
    exact congrArg List.sum (List.map_congr_left fun p hp => max_eq_right (h.nonneg p hp))
  rw [total_shown_add_leftOut, hasked, h.total_eq]

/-- What is shown of pieces that share a length fills it. -/
theorem fills (h : Shares ps a) : Fills ps a := by
  have htotal := h.shown_add_leftOut
  refine ⟨?_, ?_, fun hlong => ?_⟩
  · linarith [total_leftOut_le ps]
  · linarith [total_leftOut_nonneg ps]
  · have hnone : leftOut ps = [] := by
      refine List.eq_nil_iff_forall_not_mem.mpr fun p hp => ?_
      obtain ⟨hmem, hpos, hshort⟩ := mem_leftOut.mp hp
      exact not_lt.mpr hshort (hlong p hmem hpos)
    rw [hnone] at htotal
    simpa [Timeline.total_rat] using htotal

/-- Pieces that share a part of a cycle fill it when a last piece takes what is left after those
that are shown. -/
theorem filled_up (h : Shares ps a) (hle : a ≤ b) (color : String) :
    Fills (ps ++ Compiler.restPieces (some b) (shown ps).total color) b := by
  have hpositive : (0 : Rat) < shortest := shortest_pos
  have hupper : (shown ps).total ≤ b := h.fills.upper.trans hle
  have hlost : 0 ≤ ((ps.length : Nat) : Rat) * shortest := by positivity
  by_cases hrest : (shown ps).total < b
  · obtain ⟨last, hlast⟩ : ∃ last, last = unlit (b - (shown ps).total) color := ⟨_, rfl⟩
    have hduration : last.duration = b - (shown ps).total := by rw [hlast]; rfl
    have hlength : ((ps ++ [last]).length : Rat) * shortest =
        ps.length * shortest + shortest := by
      rw [List.length_append, List.length_singleton]
      push_cast
      ring
    rw [Compiler.restPieces, if_pos hrest, ← hlast]
    by_cases hshort : shortest < last.duration
    · have htotal : (shown (ps ++ [last])).total = b := by
        rw [shown_append, shown_cons, if_pos hshort, Timeline.total_append, Timeline.total_cons,
          hduration]
        simp [Timeline.total_rat]
      refine ⟨?_, htotal.le, fun _ => htotal⟩
      rw [htotal, hlength]
      linarith
    · have hshown : shown (ps ++ [last]) = shown ps := by
        rw [shown_append, shown_cons, if_neg hshort, shown_nil, List.append_nil]
      have hle : b - (shown ps).total ≤ shortest := by
        rw [← hduration]
        exact not_lt.mp hshort
      refine ⟨?_, by rwa [hshown], fun hlong => ?_⟩
      · rw [hshown, hlength]
        linarith
      · have hpos : 0 < last.duration := by
          rw [hduration]
          exact sub_pos.mpr hrest
        exact absurd (hlong last (List.mem_append_right ps (List.mem_singleton_self last)) hpos)
          hshort
  · have htotal : (shown ps).total = b := le_antisymm hupper (not_lt.mp hrest)
    rw [Compiler.restPieces, if_neg hrest, List.append_nil]
    refine ⟨?_, hupper, fun _ => htotal⟩
    rw [htotal]
    linarith

end Shares

/-- A cycle that is longer than all that can be lost shows something. -/
theorem Fills.shown_ne_nil (h : Fills ps a) (hlong : ps.length * shortest < a) : shown ps ≠ [] := by
  intro hnil
  have hlower := h.lower
  have hzero : Timeline.total ([] : Timeline Rat) = 0 := by simp [Timeline.total_rat]
  rw [hnil, hzero] at hlower
  linarith

namespace Compiler

/-! ### Exact numbers -/

/-- Every count is an exact number. -/
lemma countNumber_eq (n : Nat) : countNumber n = .ok (n : Rat) :=
  rfl

lemma countNumber_rat {n : Nat} {x : Rat} (h : countNumber n = .ok x) : x = n :=
  (Except.ok.inj h).symm

lemma flashWeight_rat : (flashWeight : Rat) = 3 / 10 := by norm_num [flashWeight]

lemma flashGapWeight_rat : (flashGapWeight : Rat) = 7 / 10 := by norm_num [flashGapWeight]

lemma groupGapWeight_rat : (groupGapWeight : Rat) = 2 := by norm_num [groupGapWeight]

lemma occultingShare_rat : (occultingShare : Rat) = 1 / 4 := by norm_num [occultingShare]

lemma alternatingGapShare_rat : (alternatingGapShare : Rat) = 1 / 10 := by
  norm_num [alternatingGapShare]

lemma maxAlternatingGap_rat : (maxAlternatingGap : Rat) = 1 / 5 := by norm_num [maxAlternatingGap]

end Compiler

end Seamark
