import Mathlib
import Seamark.Proofs.Characteristic.Groups

/-!
# Counts joined by plus signs

A count is written with its decimal digits, perhaps with zeros before them and blanks around them.
Written counts stand between plus signs, and entries of any other kind may stand among them: this is
the relation `Lists`, which speaks neither of trimming nor of reading digits.  Every group is such a
list of entries (`exists_lists_splitAt`), and reading gives back the counts that they list.  Only an
entry of too many digits is in the way, be it a count or nothing but zeros: the first such entry
ends the reading (`entriesCounts_of_first_overlong`).

Two groups that are joined by a plus stand for the counts of the first and then those of the second,
if each of them has a count of its own (`counts_append`).
-/

namespace Seamark

namespace Group

open Text

/-! ### How counts are written -/

/-- A count as it is written: its decimal digits with zeros before them, between blanks. -/
structure WrittenCount where
  /-- What stands before the digits. -/
  before : List Char
  /-- How many zeros stand before the digits of the number. -/
  zeros : ℕ
  /-- The number. -/
  number : ℕ
  /-- What stands behind the digits. -/
  behind : List Char
  /-- A count is positive. -/
  number_pos : 0 < number
  /-- Only blanks stand before the digits. -/
  blank_before : ∀ c ∈ before, isBlank c = true
  /-- Only blanks stand behind the digits. -/
  blank_behind : ∀ c ∈ behind, isBlank c = true

namespace WrittenCount

/-- The digits of a written count. -/
def digits (w : WrittenCount) : List Char :=
  List.replicate w.zeros '0' ++ Nat.toDigits 10 w.number

/-- The text of a written count. -/
def chars (w : WrittenCount) : List Char :=
  w.before ++ w.digits ++ w.behind

/-- A count with nothing around its digits. -/
def plain (n : ℕ) (h : 0 < n) : WrittenCount :=
  ⟨[], 0, n, [], h, List.forall_mem_nil _, List.forall_mem_nil _⟩

variable (w : WrittenCount)

lemma isPlainDigit_of_mem_digits {c : Char} (h : c ∈ w.digits) : isPlainDigit c = true := by
  rcases List.mem_append.mp h with hzero | hdigit
  · rw [List.eq_of_mem_replicate hzero]
    rfl
  · rw [isPlainDigit_eq_isDigit]
    exact isDigit_of_mem_toDigits hdigit

lemma digitsValue_digits : digitsValue w.digits = w.number := by
  rw [digits, digitsValue_append, digitsValue_zeros, zero_mul, zero_add, digitsValue_toDigits]

/-- A written count is trimmed to its digits. -/
lemma trim_chars : trim w.chars = w.digits :=
  trim_between w.blank_before w.blank_behind fun _ hc =>
    not_isBlank_of_isPlainDigit (w.isPlainDigit_of_mem_digits hc)

lemma plus_not_mem_chars : '+' ∉ w.chars := by
  have hblanks : ∀ {cs : List Char}, (∀ c ∈ cs, isBlank c = true) → '+' ∉ cs :=
    fun hcs hplus => absurd (hcs _ hplus) (by decide)
  have hdigits : '+' ∉ w.digits := plus_not_mem_digits fun _ => w.isPlainDigit_of_mem_digits
  simp only [chars, List.mem_append, not_or]
  exact ⟨⟨hblanks w.blank_before, hdigits⟩, hblanks w.blank_behind⟩

end WrittenCount

variable {entry : List Char} {entries : List (List Char)} {ns : List ℕ}

/-- The entries that are written counts, told by what they are trimmed to. -/
lemma exists_chars_eq_iff : (∃ w : WrittenCount, w.chars = entry) ↔
    (trim entry).all isPlainDigit = true ∧ 0 < digitsValue (trim entry) := by
  constructor
  · rintro ⟨w, rfl⟩
    rw [w.trim_chars, w.digitsValue_digits, List.all_eq_true]
    exact ⟨fun c hc => w.isPlainDigit_of_mem_digits hc, w.number_pos⟩
  · rintro ⟨hdigits, hpos⟩
    have hne : trim entry ≠ [] := by
      intro hnil
      rw [hnil] at hpos
      cases hpos
    have hall : ∀ d ∈ trim entry, d.isDigit = true := List.all_eq_true.mp hdigits
    obtain ⟨zeros, hzeros⟩ := exists_zeros_append_toDigits hne hall
    obtain ⟨before, behind, hbefore, hbehind, hentry⟩ := exists_eq_trim entry
    refine ⟨⟨before, zeros, _, behind, hpos, hbefore, hbehind⟩, ?_⟩
    rw [WrittenCount.chars, WrittenCount.digits, ← hzeros, ← hentry]

/-- The entries between plus signs list the counts: each count is written by one of them, in order,
and all others are no written counts. -/
inductive Lists : List (List Char) → List ℕ → Prop
  | nil : Lists [] []
  | count {entries : List (List Char)} {ns : List ℕ} (w : WrittenCount) (h : Lists entries ns) :
      Lists (w.chars :: entries) (w.number :: ns)
  | other {entry : List Char} {entries : List (List Char)} {ns : List ℕ} (hplus : '+' ∉ entry)
      (hother : ∀ w : WrittenCount, w.chars ≠ entry) (h : Lists entries ns) :
      Lists (entry :: entries) ns

/-- The group that is made of entries: plus signs stand between them. -/
def joined (entries : List (List Char)) : String :=
  String.ofList (['+'].intercalate entries)

/-- Some entry of the group is a written count. -/
def HasCount (group : String) : Prop :=
  ∃ w : WrittenCount, w.chars ∈ splitAt '+' group.toList

/-- No run of digits is longer than a number that can be read. -/
def HasShortRuns (group : String) : Prop :=
  ∀ run, run <:+: group.toList → (∀ c ∈ run, isPlainDigit c = true) → run.length ≤ maxDigits

namespace Lists

lemma of_count {w : WrittenCount} (hw : w.chars = entry) (h : Lists entries ns) :
    Lists (entry :: entries) (w.number :: ns) :=
  hw ▸ .count w h

lemma plus_not_mem (h : Lists entries ns) : ∀ entry ∈ entries, '+' ∉ entry := by
  induction h with
  | nil => exact List.forall_mem_nil _
  | count w _ ih => exact List.forall_mem_cons.mpr ⟨w.plus_not_mem_chars, ih⟩
  | other hplus _ _ ih => exact List.forall_mem_cons.mpr ⟨hplus, ih⟩

/-- Nothing is listed exactly if no entry is a written count. -/
lemma eq_nil_iff (h : Lists entries ns) : ns = [] ↔ ∀ w : WrittenCount, w.chars ∉ entries := by
  induction h with
  | nil => simp
  | count w _ ih =>
    exact iff_of_false (List.cons_ne_nil _ _) fun hnone => hnone w List.mem_cons_self
  | other _ hother _ ih => simp [ih, hother]

/-- The entries of a group are cut out of it again. -/
lemma splitAt_joined (h : Lists entries ns) (hne : ns ≠ []) :
    splitAt '+' (joined entries).toList = entries := by
  have hentries : entries ≠ [] := by
    rintro rfl
    cases h
    exact hne rfl
  rw [joined, String.toList_ofList, splitAt_intercalate hentries h.plus_not_mem]

end Lists

/-- Entries without a plus list some counts. -/
lemma exists_lists (h : ∀ entry ∈ entries, '+' ∉ entry) : ∃ ns, Lists entries ns := by
  induction entries with
  | nil => exact ⟨[], .nil⟩
  | cons entry entries ih =>
    obtain ⟨hplus, hrest⟩ := List.forall_mem_cons.mp h
    obtain ⟨ns, hns⟩ := ih hrest
    by_cases hcount : ∃ w : WrittenCount, w.chars = entry
    · obtain ⟨w, rfl⟩ := hcount
      exact ⟨w.number :: ns, .count w hns⟩
    · exact ⟨ns, .other hplus (fun w hw => hcount ⟨w, hw⟩) hns⟩

lemma exists_lists_splitAt (cs : List Char) : ∃ ns, Lists (splitAt '+' cs) ns :=
  exists_lists fun _ => not_mem_of_mem_splitAt

/-! ### Reading entries -/

/-- An entry that is not too long gives its number if that is one and positive. -/
lemma entryCounts_of_not_isOverlong (h : ¬ IsOverlong entry) :
    entryCounts entry =
      .ok (if (trim entry).all isPlainDigit = true ∧ 0 < digitsValue (trim entry)
        then [digitsValue (trim entry)] else []) := by
  by_cases hdigits : (trim entry).all isPlainDigit = true
  · have hshort : ¬ maxDigits < (trim entry).length := fun hlong => h ⟨hdigits, hlong⟩
    by_cases hempty : trim entry = []
    · simp [entryCounts, hempty, digitsValue]
    · by_cases hzero : digitsValue (trim entry) = 0
      · simp [entryCounts, hdigits, hshort, hempty, hzero]
      · simp [entryCounts, hdigits, hshort, hempty, hzero, Nat.pos_of_ne_zero hzero]
  · simp [entryCounts, hdigits]

lemma entryCounts_chars {w : WrittenCount} (h : ¬ IsOverlong w.chars) :
    entryCounts w.chars = .ok [w.number] := by
  rw [entryCounts_of_not_isOverlong h, if_pos (exists_chars_eq_iff.mp ⟨w, rfl⟩), w.trim_chars,
    w.digitsValue_digits]

lemma entryCounts_other (hother : ∀ w : WrittenCount, w.chars ≠ entry) (h : ¬ IsOverlong entry) :
    entryCounts entry = .ok [] := by
  rw [entryCounts_of_not_isOverlong h,
    if_neg fun hcount => (exists_chars_eq_iff.mpr hcount).elim hother]

/-- **What the entries list is read** if none of them is too long. -/
lemma Lists.entriesCounts_eq (h : Lists entries ns)
    (hshort : ∀ entry ∈ entries, ¬ IsOverlong entry) : entriesCounts entries = .ok ns := by
  induction h with
  | nil => rfl
  | count w _ ih =>
    obtain ⟨hw, hrest⟩ := List.forall_mem_cons.mp hshort
    rw [entriesCounts_cons_of_ok (entryCounts_chars hw), ih hrest]
    rfl
  | other _ hother _ ih =>
    obtain ⟨hentry, hrest⟩ := List.forall_mem_cons.mp hshort
    rw [entriesCounts_cons_of_ok (entryCounts_other hother hentry), ih hrest]
    rfl

/-- Entries are read one after the other. -/
lemma entriesCounts_append (xs ys : List (List Char)) :
    entriesCounts (xs ++ ys) = do
      let ns ← entriesCounts xs
      let ms ← entriesCounts ys
      return ns ++ ms := by
  induction xs with
  | nil => cases h : entriesCounts ys <;> rw [List.nil_append, h] <;> rfl
  | cons x xs ih =>
    rw [List.cons_append, entriesCounts, entriesCounts, ih]
    cases entryCounts x with
    | error e => rfl
    | ok first =>
      cases entriesCounts xs with
      | error e => rfl
      | ok ns =>
        cases entriesCounts ys with
        | error e => rfl
        | ok ms => exact congrArg Except.ok (List.append_assoc first ns ms).symm

/-- The first entry that is too long ends the reading. -/
lemma entriesCounts_of_first_overlong {before after : List (List Char)}
    (hshort : ∀ entry ∈ before, ¬ IsOverlong entry) (hlong : IsOverlong entry) :
    entriesCounts (before ++ entry :: after) = .error ⟨(trim entry).length⟩ := by
  have hentry : entryCounts entry = .error ⟨(trim entry).length⟩ :=
    entryCounts_eq_error_iff.mpr ⟨hlong, rfl⟩
  rw [entriesCounts_append, entriesCounts, hentry]
  cases hbefore : entriesCounts before with
  | ok ns => rfl
  | error e =>
    obtain ⟨first, hmem, hfirst⟩ := exists_entriesCounts_eq_error_iff.mp ⟨e, hbefore⟩
    exact absurd hfirst (hshort first hmem)

/-- Either no entry is too long or there is a first one that is. -/
lemma short_or_first_overlong (entries : List (List Char)) :
    (∀ entry ∈ entries, ¬ IsOverlong entry) ∨
      ∃ before first after, entries = before ++ first :: after ∧
        (∀ entry ∈ before, ¬ IsOverlong entry) ∧ IsOverlong first := by
  cases hfind : entries.find? (fun entry => decide (IsOverlong entry)) with
  | none =>
    refine .inl fun entry hentry hlong => List.find?_eq_none.mp hfind entry hentry ?_
    exact decide_eq_true hlong
  | some entry =>
    obtain ⟨hlong, before, after, hsplit, hshort⟩ := List.find?_eq_some_iff_append.mp hfind
    refine .inr ⟨before, entry, after, hsplit, fun first hfirst => ?_, of_decide_eq_true hlong⟩
    simpa using hshort first hfirst

/-! ### Reading groups -/

section

variable {group : String}

lemma HasShortRuns.not_isOverlong (h : HasShortRuns group) :
    ∀ entry ∈ splitAt '+' group.toList, ¬ IsOverlong entry := by
  rintro entry hentry ⟨hdigits, hlong⟩
  have hrun : trim entry <:+: group.toList := (infix_trim entry).trans (infix_of_mem_splitAt hentry)
  exact absurd (h _ hrun (List.all_eq_true.mp hdigits)) (not_le.mpr hlong)

/-- Where there is a written count, the counts are those of the entries. -/
lemma HasCount.counts_eq (h : HasCount group) :
    counts (some group) = entriesCounts (splitAt '+' group.toList) := by
  obtain ⟨w, hw⟩ := h
  obtain ⟨ns, hns⟩ := exists_lists_splitAt group.toList
  have hne : ns ≠ [] := fun hnil => hns.eq_nil_iff.mp hnil w hw
  rw [counts]
  rcases short_or_first_overlong (splitAt '+' group.toList) with
    hshort | ⟨before, entry, after, hsplit, hshort, hlong⟩
  · rw [hns.entriesCounts_eq hshort, Except.map, if_neg (by simpa using hne)]
  · rw [hsplit, entriesCounts_of_first_overlong hshort hlong, Except.map]

/-- A group without a count and without too many digits stands for one. -/
lemma counts_of_not_hasCount (h : ¬ HasCount group)
    (hshort : ∀ entry ∈ splitAt '+' group.toList, ¬ IsOverlong entry) :
    counts (some group) = .ok [1] := by
  obtain ⟨ns, hns⟩ := exists_lists_splitAt group.toList
  have hnil : ns = [] := hns.eq_nil_iff.mpr fun w hw => h ⟨w, hw⟩
  rw [counts, hns.entriesCounts_eq hshort, hnil]
  rfl

end

/-- Entries that list some count give their group one. -/
lemma Lists.hasCount_joined (h : Lists entries ns) (hne : ns ≠ []) : HasCount (joined entries) := by
  rw [HasCount, h.splitAt_joined hne]
  by_contra hnone
  exact hne (h.eq_nil_iff.mpr fun w hw => hnone ⟨w, hw⟩)

/-- The plus between two groups is where their entries meet. -/
lemma splitAt_plus (a b : String) : splitAt '+' (a ++ "+" ++ b).toList =
    splitAt '+' a.toList ++ splitAt '+' b.toList := by
  have hplus : "+".toList = ['+'] := rfl
  rw [String.toList_append, String.toList_append, hplus, List.append_assoc, List.singleton_append,
    splitAt_append_cons]

/-- **Joining groups joins their counts.** -/
lemma counts_append {a b : String} (ha : HasCount a) (hb : HasCount b) :
    counts (some (a ++ "+" ++ b)) = do
      let ns ← counts (some a)
      let ms ← counts (some b)
      return ns ++ ms := by
  have hab : HasCount (a ++ "+" ++ b) := by
    obtain ⟨w, hw⟩ := ha
    exact ⟨w, by rw [splitAt_plus]; exact List.mem_append_left _ hw⟩
  rw [ha.counts_eq, hb.counts_eq, hab.counts_eq, splitAt_plus, entriesCounts_append]

/-- **Reading a group inverts the plus notation.**  If the entries of a group list some counts,
reading gives exactly these, unless some entry has too many digits: then the first such entry is
reported.  A group without too many digits in a row always has counts, at least one and all of them
positive, and a single one if no entry is a written count.  Joining two groups by a plus joins their
counts. -/
theorem plus_notation_counts (group : String) :
    (∀ entries ns, joined entries = group → Lists entries ns → ns ≠ [] →
      ((∀ entry ∈ entries, ¬ IsOverlong entry) ∧ counts (some group) = .ok ns) ∨
        ∃ before first after, entries = before ++ first :: after ∧
          (∀ entry ∈ before, ¬ IsOverlong entry) ∧ IsOverlong first ∧
          counts (some group) = .error ⟨(trim first).length⟩) ∧
    (HasShortRuns group → ∃ ns, counts (some group) = .ok ns ∧ ns ≠ [] ∧ (∀ n ∈ ns, 0 < n) ∧
      (¬ HasCount group → ns = [1])) ∧
    ∀ next, HasCount group → HasCount next →
      counts (some (group ++ "+" ++ next)) = do
        let ns ← counts (some group)
        let ms ← counts (some next)
        return ns ++ ms := by
  refine ⟨?_, fun hruns => ?_, fun next => counts_append⟩
  · rintro entries ns rfl hlists hne
    rw [(hlists.hasCount_joined hne).counts_eq, hlists.splitAt_joined hne]
    rcases short_or_first_overlong entries with
      hshort | ⟨before, first, after, hsplit, hshort, hlong⟩
    · exact .inl ⟨hshort, hlists.entriesCounts_eq hshort⟩
    · exact .inr ⟨before, first, after, hsplit, hshort, hlong,
        hsplit ▸ entriesCounts_of_first_overlong hshort hlong⟩
  · have hshort := hruns.not_isOverlong
    cases hcounts : counts (some group) with
    | error e =>
      obtain ⟨text, htext, entry, hentry, hlong⟩ := exists_counts_eq_error_iff.mp ⟨e, hcounts⟩
      obtain rfl := Option.some.inj htext
      exact absurd hlong (hshort entry hentry)
    | ok ns =>
      refine ⟨ns, rfl, counts_ne_nil hcounts, counts_pos hcounts, fun hnone => ?_⟩
      exact Except.ok.inj (hcounts.symm.trans (counts_of_not_hasCount hnone hshort))

/-- Counts between blanks, the first with a zero before it, and entries that are no counts among
them: a letter, a digit of another script and zeros. -/
theorem padded_plus_notation_counts :
    Lists [[' ', '0', '2'], ['x'], ['٣'], ['3', '\u3000'], ['0', '0']] [2, 3] ∧
      counts (some " 02+x+٣+3\u3000+00") = .ok [2, 3] ∧
      HasShortRuns "0+x" ∧ ¬ HasCount "0+x" ∧ counts (some "0+x") = .ok [1] ∧
      HasCount "2" ∧ HasCount "1+1" ∧ counts (some "2+1+1") = .ok [2, 1, 1] := by
  have hno : ∀ {entry : List Char},
      ¬ ((trim entry).all isPlainDigit = true ∧ 0 < digitsValue (trim entry)) →
        ∀ w : WrittenCount, w.chars ≠ entry :=
    fun hentry w hw => hentry (exists_chars_eq_iff.mp ⟨w, hw⟩)
  have hlists : Lists [[' ', '0', '2'], ['x'], ['٣'], ['3', '\u3000'], ['0', '0']] [2, 3] := by
    refine .of_count (w := ⟨[' '], 1, 2, [], by decide, List.forall_mem_singleton.mpr rfl,
      List.forall_mem_nil _⟩) (by decide) ?_
    refine .other (by decide) (hno (by decide)) (.other (by decide) (hno (by decide)) ?_)
    refine .of_count (w := ⟨[], 0, 3, ['\u3000'], by decide, List.forall_mem_nil _,
      List.forall_mem_singleton.mpr rfl⟩) (by decide) ?_
    exact .other (by decide) (hno (by decide)) .nil
  have hjoined : joined [[' ', '0', '2'], ['x'], ['٣'], ['3', '\u3000'], ['0', '0']] =
      " 02+x+٣+3\u3000+00" := by decide
  have hread : counts (some " 02+x+٣+3\u3000+00") = .ok [2, 3] := by
    rcases (plus_notation_counts _).1 _ _ hjoined hlists (List.cons_ne_nil _ _) with
      ⟨-, hread⟩ | ⟨before, first, after, hsplit, -, hlong, -⟩
    · exact hread
    · have hshort : ∀ entry ∈ [[' ', '0', '2'], ['x'], ['٣'], ['3', '\u3000'], ['0', '0']],
          ¬ IsOverlong entry := by decide
      exact absurd hlong (hshort first (hsplit ▸ List.mem_append_right before List.mem_cons_self))
  have hruns : HasShortRuns "0+x" := fun run hrun _ => hrun.length_le.trans (by decide)
  have hnone : ¬ HasCount "0+x" := by
    have hentries : splitAt '+' "0+x".toList = [['0'], ['x']] := by decide
    rintro ⟨w, hw⟩
    rw [hentries] at hw
    rcases List.mem_pair.mp hw with hw | hw
    · exact hno (by decide) w hw
    · exact hno (by decide) w hw
  obtain ⟨ns, hns, -, -, hone⟩ := (plus_notation_counts "0+x").2.1 hruns
  have htwo : HasCount "2" := ⟨.plain 2 (by decide), by decide⟩
  have hones : HasCount "1+1" := ⟨.plain 1 (by decide), by decide⟩
  have happend := (plus_notation_counts "2").2.2 "1+1" htwo hones
  exact ⟨hlists, hread, hruns, hnone, hone hnone ▸ hns, htwo, hones, happend⟩

/-- **Zeros are not passed over** if there are too many of them: they are no count, yet the group is
not read. -/
theorem overlong_zeros_not_passed_over :
    Lists [['3'], List.replicate 4301 '0'] [3] ∧
      counts (some (joined [['3'], List.replicate 4301 '0'])) = .error ⟨4301⟩ := by
  have hdigits : ∀ c ∈ List.replicate 4301 '0', isPlainDigit c = true := fun c hc => by
    rw [List.eq_of_mem_replicate hc]
    rfl
  have hlong : IsOverlong (List.replicate 4301 '0') :=
    isOverlong_of_digits hdigits (by rw [List.length_replicate]; decide)
  have hlists : Lists [['3'], List.replicate 4301 '0'] [3] := by
    refine .count (.plain 3 (by decide))
      (.other (plus_not_mem_digits hdigits) (fun w hw => ?_) .nil)
    have hpos := (exists_chars_eq_iff.mp ⟨w, hw⟩).2
    rw [trim_digits hdigits, digitsValue_zeros] at hpos
    cases hpos
  have hshort : ∀ entry ∈ [['3']], ¬ IsOverlong entry := by decide
  refine ⟨hlists, ?_⟩
  rw [(hlists.hasCount_joined (List.cons_ne_nil _ _)).counts_eq,
    hlists.splitAt_joined (List.cons_ne_nil _ _), ← List.singleton_append,
    entriesCounts_of_first_overlong hshort hlong, trim_digits hdigits, List.length_replicate]

end Group

end Seamark
