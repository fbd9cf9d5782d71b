import Mathlib
import Seamark.Catalog.Audit

/-!
# Ranking texts by how often they come

A tally counts each text once, in the order in which texts first come (`isTally_tally`, by adding
one text after the other).  Sorting it by the counts keeps entries of the same count in that order,
so of two texts the one that comes more often stands first, and of two that come equally often
the one that comes first (`IsTally.pairwise_sort`).  The first entries therefore outrank all that
is left out (`isRanking_mostCommon`).
-/

namespace Seamark.Catalog

/-- A text stands before another one in a ranking: it comes more often, or as often and first. -/
def Outranks (texts : List String) (s t : String) : Prop :=
  texts.count t < texts.count s ∨ texts.count t = texts.count s ∧ texts.idxOf s < texts.idxOf t

/-- The entries count some texts. -/
structure IsTally (texts : List String) (entries : List (String × ℕ)) : Prop where
  /-- The texts are those that are counted, -/
  mem_iff : ∀ text, text ∈ entries.map Prod.fst ↔ text ∈ texts
  /-- each in its place, -/
  inOrder : (entries.map Prod.fst).Pairwise fun s t => texts.idxOf s < texts.idxOf t
  /-- with the number of times it comes. -/
  counts : ∀ entry ∈ entries, entry.2 = texts.count entry.1

/-- The entries are the texts that come most often, at most a number of them. -/
structure IsRanking (n : ℕ) (texts : List String) (ranking : List (String × ℕ)) : Prop where
  /-- There are as many as there can be. -/
  length_eq : ranking.length = min n texts.toFinset.card
  /-- No text is listed twice. -/
  nodup : (ranking.map Prod.fst).Nodup
  /-- Each text that is listed comes as often as its entry says. -/
  counts : ∀ entry ∈ ranking, entry.1 ∈ texts ∧ entry.2 = texts.count entry.1
  /-- A text stands before those that it outranks. -/
  ordered : ranking.Pairwise fun a b => Outranks texts a.1 b.1
  /-- A text that is left out is outranked by all that are listed. -/
  complete : ∀ text ∈ texts, text ∉ ranking.map Prod.fst →
    ∀ entry ∈ ranking, Outranks texts entry.1 text

section

variable {text : String} {texts : List String} {entries : List (String × ℕ)}

/-! ### The tally -/

/-- Counting a text changes the texts only if it is a new one. -/
lemma keys_countOne (text : String) (entries : List (String × ℕ)) :
    (countOne text entries).map Prod.fst =
      if text ∈ entries.map Prod.fst then entries.map Prod.fst
      else entries.map Prod.fst ++ [text] := by
  induction entries with
  | nil => rfl
  | cons entry entries ih =>
    rw [countOne]
    by_cases heq : entry.1 = text
    · simp [heq]
    · have hne : text ≠ entry.1 := Ne.symm heq
      rw [if_neg heq, List.map_cons, ih]
      simp only [List.map_cons, List.mem_cons, hne, false_or]
      split_ifs <;> rfl

/-- The count of that text grows by one, and the other counts stay. -/
lemma counts_countOne {f : String → ℕ} (hnodup : (entries.map Prod.fst).Nodup)
    (hcounts : ∀ entry ∈ entries, entry.2 = f entry.1)
    (hnew : text ∉ entries.map Prod.fst → f text = 0) :
    ∀ entry ∈ countOne text entries,
      entry.2 = if entry.1 = text then f text + 1 else f entry.1 := by
  induction entries with
  | nil =>
    intro entry hentry
    obtain rfl := List.mem_singleton.mp hentry
    simp [hnew]
  | cons first entries ih =>
    obtain ⟨hfirst, hrest⟩ := List.forall_mem_cons.mp hcounts
    rw [List.map_cons, List.nodup_cons] at hnodup
    rw [countOne]
    split_ifs with heq
    · -- no later entry has the text
      refine List.forall_mem_cons.mpr ⟨by simp [hfirst, heq], fun entry hentry => ?_⟩
      have hne : entry.1 ≠ text := fun h =>
        hnodup.1 (heq.trans h.symm ▸ List.mem_map_of_mem hentry)
      rw [if_neg hne, hrest entry hentry]
    · refine List.forall_mem_cons.mpr ⟨by rw [if_neg heq, hfirst], ?_⟩
      exact ih hnodup.2 hrest fun h => hnew (by simp [Ne.symm heq, h])

lemma IsTally.nodup (h : IsTally texts entries) : (entries.map Prod.fst).Nodup :=
  h.inOrder.imp fun hlt heq => hlt.ne (congrArg (texts.idxOf ·) heq)

/-- One more text is counted. -/
lemma IsTally.countOne (h : IsTally texts entries) (text : String) :
    IsTally (texts ++ [text]) (countOne text entries) where
  mem_iff s := by
    rw [keys_countOne, List.mem_append, List.mem_singleton, ← h.mem_iff s]
    split_ifs with hmem
    · exact ⟨Or.inl, fun hs => hs.elim id fun heq => heq ▸ hmem⟩
    · rw [List.mem_append, List.mem_singleton]
  inOrder := by
    -- what stood in the list before keeps its place
    have hold : (entries.map Prod.fst).Pairwise fun s t =>
        (texts ++ [text]).idxOf s < (texts ++ [text]).idxOf t := by
      refine h.inOrder.imp_of_mem fun {s t} hs ht hlt => ?_
      rwa [List.idxOf_append_of_mem ((h.mem_iff s).mp hs),
        List.idxOf_append_of_mem ((h.mem_iff t).mp ht)]
    rw [keys_countOne]
    split_ifs with hmem
    · exact hold
    · refine List.pairwise_append.mpr ⟨hold, List.pairwise_singleton _ _, fun s hs t ht => ?_⟩
      obtain rfl := List.mem_singleton.mp ht
      have hs' := (h.mem_iff s).mp hs
      rw [List.idxOf_append_of_mem hs', List.idxOf_append_of_notMem (mt (h.mem_iff t).mpr hmem)]
      exact Nat.lt_add_right _ (List.idxOf_lt_length_of_mem hs')
  counts entry hentry := by
    have hcount := counts_countOne (f := (texts.count ·)) h.nodup h.counts
      (fun hnone => List.count_eq_zero_of_not_mem (mt (h.mem_iff text).mpr hnone)) entry hentry
    rw [hcount, List.count_append, List.count_singleton]
    split_ifs with heq <;> simp_all

/-- **A tally counts its texts.** -/
lemma isTally_tally (texts : List String) : IsTally texts (tally texts) := by
  induction texts using List.reverseRecOn with
  | nil => exact ⟨fun _ => Iff.rfl, List.Pairwise.nil, nofun⟩
  | append_singleton texts text ih =>
    rw [tally, List.foldl_append]
    exact ih.countOne text

/-! ### The ranking -/

/-- The order by which entries are ranked: the larger count first. -/
def ranksFirst (a b : String × ℕ) : Bool := decide (b.2 ≤ a.2)

lemma ranksFirst_trans (a b c : String × ℕ) (hab : ranksFirst a b = true)
    (hbc : ranksFirst b c = true) : ranksFirst a c = true := by
  simp only [ranksFirst, decide_eq_true_eq] at hab hbc ⊢
  omega

lemma ranksFirst_total (a b : String × ℕ) : (ranksFirst a b || ranksFirst b a) = true := by
  simp only [ranksFirst, Bool.or_eq_true, decide_eq_true_eq]
  omega

/-- Entries of the same count stay in order when they are sorted. -/
lemma filter_mergeSort (entries : List (String × ℕ)) (n : ℕ) :
    (entries.mergeSort ranksFirst).filter (fun entry => entry.2 = n) =
      entries.filter fun entry => entry.2 = n := by
  have hequal : (entries.filter fun entry => entry.2 = n).Pairwise
      fun a b => ranksFirst a b = true := by
    refine List.pairwise_of_forall_mem_list fun a ha b hb => ?_
    have ha' : a.2 = n := by simpa using (List.mem_filter.mp ha).2
    have hb' : b.2 = n := by simpa using (List.mem_filter.mp hb).2
    simp [ranksFirst, ha', hb']
  have hsorted := (List.sublist_mergeSort ranksFirst_trans ranksFirst_total hequal
    List.filter_sublist).filter fun entry => decide (entry.2 = n)
  rw [List.filter_filter] at hsorted
  simp only [Bool.and_self] at hsorted
  exact (hsorted.eq_of_length
    ((List.mergeSort_perm entries ranksFirst).filter _).length_eq.symm).symm

/-- **Sorted entries stand in the order in which texts outrank each other.** -/
lemma IsTally.pairwise_sort (h : IsTally texts entries) :
    (entries.mergeSort ranksFirst).Pairwise fun a b => Outranks texts a.1 b.1 := by
  have hmem {entry : String × ℕ} (hentry : entry ∈ entries.mergeSort ranksFirst) :
      entry.2 = texts.count entry.1 := h.counts entry (List.mem_mergeSort.mp hentry)
  refine List.pairwise_iff_forall_sublist.mpr fun {a b} hpair => ?_
  have ha := hmem (hpair.subset List.mem_cons_self)
  have hb := hmem (hpair.subset (List.mem_cons_of_mem _ List.mem_cons_self))
  have hle : ranksFirst a b = true := List.pairwise_iff_forall_sublist.mp
    (List.pairwise_mergeSort ranksFirst_trans ranksFirst_total entries) hpair
  rw [ranksFirst, decide_eq_true_eq] at hle
  rcases hle.lt_or_eq with hlt | heq
  · exact Or.inl (by rwa [← ha, ← hb])
  · -- two entries of one count stand as they stood in the tally
    have hsame := hpair.filter fun entry => decide (entry.2 = a.2)
    rw [filter_mergeSort, List.filter_cons_of_pos (by simp),
      List.filter_cons_of_pos (by simp [heq]), List.filter_nil] at hsame
    have horder := List.pairwise_iff_forall_sublist.mp (List.pairwise_map.mp h.inOrder)
      (hsame.trans List.filter_sublist)
    exact Or.inr ⟨by rw [← ha, ← hb, heq], horder⟩

/-- **The most common texts are a ranking.** -/
theorem isRanking_mostCommon (n : ℕ) (texts : List String) :
    IsRanking n texts (mostCommon n texts) := by
  have htally := isTally_tally texts
  have hsorted := htally.pairwise_sort
  have hperm := List.mergeSort_perm (tally texts) ranksFirst
  have hkeys := hperm.map Prod.fst
  have hrank : mostCommon n texts = ((tally texts).mergeSort ranksFirst).take n := rfl
  rw [hrank]
  have hsub := List.take_sublist n ((tally texts).mergeSort ranksFirst)
  refine ⟨?_, ?_, fun entry hentry => ?_, hsorted.sublist hsub,
    fun text htext hout entry hentry => ?_⟩
  · have hset : texts.toFinset = ((tally texts).map Prod.fst).toFinset := by
      ext text
      rw [List.mem_toFinset, List.mem_toFinset, htally.mem_iff]
    rw [List.length_take, List.length_mergeSort, hset,
      List.toFinset_card_of_nodup htally.nodup, List.length_map]
  · exact (hkeys.nodup_iff.mpr htally.nodup).sublist (hsub.map _)
  · have hmem := hperm.mem_iff.mp (hsub.subset hentry)
    exact ⟨(htally.mem_iff _).mp (List.mem_map_of_mem hmem), htally.counts entry hmem⟩
  · -- the text that is left out has an entry behind the first ones
    have hall := hkeys.mem_iff.mpr ((htally.mem_iff text).mpr htext)
    rw [← List.take_append_drop n ((tally texts).mergeSort ranksFirst), List.map_append,
      List.mem_append] at hall
    obtain ⟨left, hleft, rfl⟩ := List.mem_map.mp (hall.resolve_left hout)
    rw [← List.take_append_drop n ((tally texts).mergeSort ranksFirst),
      List.pairwise_append] at hsorted
    exact hsorted.2.2 entry hentry left hleft

end

end Seamark.Catalog
