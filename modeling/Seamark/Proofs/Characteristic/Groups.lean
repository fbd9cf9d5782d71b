import Mathlib
import Seamark.Characteristic.Groups
import Seamark.Proofs.Text.Digits
import Seamark.Proofs.Text.Pieces

/-!
# What a group stands for

The counts of a group are never none and never zero.  They cannot be read exactly if some entry
between the plus signs is written with more digits than a number may have: this is the only way for
a group to fail, and a group of nothing but digits shows that it happens.
-/

namespace Seamark

namespace Group

open Text

lemma isPlainDigit_eq_isDigit (c : Char) : isPlainDigit c = c.isDigit := rfl

lemma not_isBlank_of_isPlainDigit {c : Char} (h : isPlainDigit c = true) : isBlank c = false :=
  not_isBlank_of_isDigit (isDigit_of_isDigit (isPlainDigit_eq_isDigit c ▸ h))

/-- An entry that is a number with more digits than can be read. -/
def IsOverlong (entry : List Char) : Prop :=
  (trim entry).all isPlainDigit = true ∧ maxDigits < (trim entry).length

instance decidableIsOverlong (entry : List Char) : Decidable (IsOverlong entry) :=
  inferInstanceAs (Decidable (_ ∧ _))

lemma entryCounts_eq_error_iff {entry : List Char} {e : TooManyDigits} :
    entryCounts entry = .error e ↔ IsOverlong entry ∧ e = ⟨(trim entry).length⟩ := by
  by_cases hdigits : (trim entry).all isPlainDigit = true
  · by_cases hlong : maxDigits < (trim entry).length
    · have hne : trim entry ≠ [] := by
        intro hnil
        simp [hnil] at hlong
      simp only [entryCounts, IsOverlong, hdigits, hlong, List.isEmpty_eq_false_iff.mpr hne,
        Bool.not_true, Bool.or_false, Bool.false_eq_true, if_false, if_true, and_self, true_and,
        Except.error.injEq, eq_comm]
    · simp only [entryCounts, IsOverlong, hdigits, hlong, and_false, false_and, iff_false, if_false]
      split_ifs <;> simp
  · simp [entryCounts, IsOverlong, hdigits]

lemma pos_of_entryCounts {entry : List Char} {ns : List Nat} (h : entryCounts entry = .ok ns) :
    ∀ n ∈ ns, 0 < n := by
  simp only [entryCounts] at h
  split_ifs at h with hempty hlong hzero <;> obtain rfl := Except.ok.inj h
  · simp
  · simp
  · intro n hn
    obtain rfl := List.mem_singleton.mp hn
    exact Nat.pos_of_ne_zero hzero

lemma entriesCounts_cons_of_ok {entry : List Char} {entries : List (List Char)} {first : List Nat}
    (h : entryCounts entry = .ok first) :
    entriesCounts (entry :: entries) = (entriesCounts entries).map (first ++ ·) := by
  rw [entriesCounts, h]

lemma pos_of_entriesCounts {entries : List (List Char)} {ns : List Nat}
    (h : entriesCounts entries = .ok ns) : ∀ n ∈ ns, 0 < n := by
  induction entries generalizing ns with
  | nil =>
    obtain rfl := Except.ok.inj h
    simp
  | cons entry entries ih =>
    cases hfirst : entryCounts entry with
    | error e => simp [entriesCounts, hfirst] at h
    | ok first =>
      rw [entriesCounts_cons_of_ok hfirst] at h
      cases hrest : entriesCounts entries with
      | error e => simp [hrest, Except.map] at h
      | ok rest =>
        rw [hrest] at h
        obtain rfl := Except.ok.inj h
        intro n hn
        rcases List.mem_append.mp hn with hn | hn
        · exact pos_of_entryCounts hfirst n hn
        · exact ih hrest n hn

lemma exists_entriesCounts_eq_error_iff {entries : List (List Char)} :
    (∃ e, entriesCounts entries = .error e) ↔ ∃ entry ∈ entries, IsOverlong entry := by
  induction entries with
  | nil => simp [entriesCounts]
  | cons entry entries ih =>
    rw [List.exists_mem_cons_iff, ← ih]
    cases hfirst : entryCounts entry with
    | error e =>
      have hlong := (entryCounts_eq_error_iff.mp hfirst).1
      simp [entriesCounts, hfirst, hlong]
    | ok first =>
      have hshort : ¬ IsOverlong entry := by
        intro hlong
        have herror := entryCounts_eq_error_iff.mpr ⟨hlong, rfl⟩
        rw [hfirst] at herror
        cases herror
      rw [entriesCounts_cons_of_ok hfirst]
      cases entriesCounts entries <;> simp [Except.map, hshort]

variable {group : Option String} {ns : List Nat}

/-- The counts of a text are those of its entries, or a single one if there are none. -/
lemma exists_entriesCounts_of_counts {text : String} (h : counts (some text) = .ok ns) :
    ∃ found, entriesCounts (splitAt '+' text.toList) = .ok found ∧
      ns = if found.isEmpty then [1] else found := by
  rw [counts] at h
  cases hentries : entriesCounts (splitAt '+' text.toList) with
  | error e =>
    rw [hentries] at h
    cases h
  | ok found =>
    rw [hentries] at h
    exact ⟨found, rfl, (Except.ok.inj h).symm⟩

/-- There is a count. -/
theorem counts_ne_nil (h : counts group = .ok ns) : ns ≠ [] := by
  cases group with
  | none =>
    obtain rfl := Except.ok.inj h
    exact List.cons_ne_nil _ _
  | some text =>
    obtain ⟨found, -, rfl⟩ := exists_entriesCounts_of_counts h
    cases found <;> simp

/-- Counts are positive. -/
theorem counts_pos (h : counts group = .ok ns) : ∀ n ∈ ns, 0 < n := by
  cases group with
  | none =>
    obtain rfl := Except.ok.inj h
    simp
  | some text =>
    obtain ⟨found, hfound, rfl⟩ := exists_entriesCounts_of_counts h
    cases found with
    | nil => simp
    | cons n found => exact pos_of_entriesCounts hfound

/-- **A group fails for a number that is too long.**  Nothing else between the plus signs does harm:
what is no number is passed over. -/
theorem exists_counts_eq_error_iff :
    (∃ e, counts group = .error e) ↔
      ∃ text, group = some text ∧ ∃ entry ∈ splitAt '+' text.toList, IsOverlong entry := by
  cases group with
  | none => simp [counts]
  | some text =>
    simp only [Option.some.injEq, exists_eq_left', ← exists_entriesCounts_eq_error_iff, counts]
    cases entriesCounts (splitAt '+' text.toList) <;> simp [Except.map]

section

variable {digits : List Char} (hdigits : ∀ c ∈ digits, isPlainDigit c = true)
include hdigits

lemma trim_digits : trim digits = digits :=
  trim_of_forall fun c hc => not_isBlank_of_isPlainDigit (hdigits c hc)

lemma plus_not_mem_digits : '+' ∉ digits := fun hplus => absurd (hdigits '+' hplus) (by decide)

variable (hlong : maxDigits < digits.length)
include hlong

/-- An entry of digits only, too many of them. -/
lemma isOverlong_of_digits : IsOverlong digits := by
  rw [IsOverlong, trim_digits hdigits]
  exact ⟨List.all_eq_true.mpr hdigits, hlong⟩

/-- A group of digits only, too many of them. -/
lemma counts_of_digits :
    counts (some (String.ofList digits)) = .error ⟨digits.length⟩ := by
  have hentry : entryCounts digits = .error ⟨digits.length⟩ :=
    entryCounts_eq_error_iff.mpr
      ⟨isOverlong_of_digits hdigits hlong, by rw [trim_digits hdigits]⟩
  rw [counts, String.toList_ofList, splitAt_of_not_mem (plus_not_mem_digits hdigits), entriesCounts,
    hentry]
  rfl

end

lemma isPlainDigit_of_mem_ones {n : Nat} : ∀ d ∈ List.replicate n '1', isPlainDigit d = true := by
  intro d hd
  rw [List.eq_of_mem_replicate hd]
  rfl

/-- A number of more ones than can be read. -/
lemma counts_ones {n : Nat} (hlong : maxDigits < n) :
    counts (some (String.ofList (List.replicate n '1'))) = .error ⟨n⟩ := by
  have hlength : (List.replicate n '1').length = n := List.length_replicate
  have hcounts := counts_of_digits isPlainDigit_of_mem_ones (hlength.symm ▸ hlong)
  rwa [hlength] at hcounts

end Group

end Seamark
