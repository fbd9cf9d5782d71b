import Mathlib
import Seamark.Text.Blank
import Seamark.Text.Digit

/-!
# Runs of digits

A run of digits of the first script is the digits of its value with zeros in front
(`exists_zeros_append_toDigits`), and the value of the digits of a number is the number
(`digitsValue_toDigits`).  So digits and numbers stand for each other but for zeros in front.
-/

namespace Seamark.Text

/-! ### Digits of any script -/

/-- No digit of any script is a blank. -/
lemma not_isBlank_of_isDigit {c : Char} (h : isDigit c = true) : isBlank c = false := by
  have hapart : ∀ z ∈ zeroDigits, ∀ r ∈ blankRanges, z + 10 ≤ r.1 ∨ r.2 < z := by decide
  obtain ⟨n, hn⟩ := Option.isSome_iff_exists.mp h
  obtain ⟨z, hz, hrange⟩ := List.exists_of_findSome?_eq_some hn
  split_ifs at hrange with hbounds
  rw [isBlank, List.any_eq_false]
  intro r hr
  have := hapart z hz r hr
  simp only [Bool.and_eq_true, decide_eq_true_eq]
  omega

lemma digitsValue_concat (ds : List Char) (d : Char) :
    digitsValue (ds ++ [d]) = 10 * digitsValue ds + (digitValue? d).getD 0 := by
  simp [digitsValue]

lemma digitsValue_append (ds es : List Char) :
    digitsValue (ds ++ es) = digitsValue ds * 10 ^ es.length + digitsValue es := by
  induction es using List.reverseRecOn with
  | nil => simp [digitsValue]
  | append_singleton es e ih =>
    rw [← List.append_assoc, digitsValue_concat, digitsValue_concat, ih, List.length_append,
      List.length_singleton, pow_succ]
    ring

/-! ### Digits of the first script -/

lemma range_of_isDigit {c : Char} (h : c.isDigit = true) : 48 ≤ c.toNat ∧ c.toNat ≤ 57 := by
  simp only [Char.isDigit, Bool.and_eq_true, decide_eq_true_eq, ge_iff_le, UInt32.le_iff_toNat_le,
    Char.toNat_val] at h
  exact h

/-- The first script is the first in the table of digits. -/
lemma digitValue?_of_isDigit {c : Char} (h : c.isDigit = true) :
    digitValue? c = some (c.toNat - '0'.toNat) := by
  have hrange := range_of_isDigit h
  rw [digitValue?, zeroDigits, List.findSome?_cons, if_pos (by omega)]
  rfl

lemma isDigit_of_isDigit {c : Char} (h : c.isDigit = true) : isDigit c = true := by
  rw [isDigit, digitValue?_of_isDigit h]
  rfl

/-- A digit is the digit of its value. -/
lemma exists_digitChar_eq {c : Char} (h : c.isDigit = true) :
    ∃ v < 10, digitValue? c = some v ∧ v.digitChar = c := by
  have hrange := range_of_isDigit h
  have hzero : '0'.toNat = 48 := rfl
  have hlt : c.toNat - '0'.toNat < 10 := by omega
  refine ⟨_, hlt, digitValue?_of_isDigit h, Char.toNat_inj.mp ?_⟩
  rw [Nat.toNat_digitChar_of_lt_ten hlt]
  omega

/-- Digits of the first script have the value that is read from them everywhere. -/
lemma digitsValue_eq {cs : List Char} (h : ∀ c ∈ cs, c.isDigit = true) :
    digitsValue cs = Nat.ofDigitChars 10 cs 0 := by
  rw [digitsValue, Nat.ofDigitChars]
  refine List.foldl_ext _ _ _ fun n c hc => ?_
  rw [digitValue?_of_isDigit (h c hc), Option.getD_some]

lemma isDigit_of_mem_toDigits {n : ℕ} {c : Char} (h : c ∈ Nat.toDigits 10 n) :
    c.isDigit = true :=
  Nat.isDigit_of_mem_toDigits (by norm_num) (by norm_num) h

/-- The digits of a number are read as the number. -/
lemma digitsValue_toDigits (n : ℕ) : digitsValue (Nat.toDigits 10 n) = n := by
  rw [digitsValue_eq fun c hc => isDigit_of_mem_toDigits hc, Nat.ofDigitChars_ten_toDigits]

lemma digitsValue_zeros (k : ℕ) : digitsValue (List.replicate k '0') = 0 := by
  rw [digitsValue_eq, Nat.ofDigitChars_replicate_zero, mul_zero]
  intro c hc
  rw [List.eq_of_mem_replicate hc]
  rfl

/-- **Digits are those of their value**, with zeros in front. -/
theorem exists_zeros_append_toDigits {ds : List Char} (hne : ds ≠ [])
    (h : ∀ d ∈ ds, d.isDigit = true) :
    ∃ k, ds = List.replicate k '0' ++ Nat.toDigits 10 (digitsValue ds) := by
  induction ds using List.reverseRecOn with
  | nil => exact absurd rfl hne
  | append_singleton ds d ih =>
    obtain ⟨v, hlt, hv, hchar⟩ := exists_digitChar_eq (h d (by simp))
    have hlast : Nat.toDigits 10 v = [d] := by rw [Nat.toDigits_of_lt_base hlt, hchar]
    rw [digitsValue_concat, hv, Option.getD_some]
    by_cases hds : ds = []
    · subst hds
      exact ⟨0, by simpa [digitsValue] using hlast.symm⟩
    · obtain ⟨k, hk⟩ := ih hds fun e he => h e (List.mem_append_left _ he)
      rcases Nat.eq_zero_or_pos (digitsValue ds) with hzero | hpos
      · -- the digits before the last are zeros, one of which is their value
        rw [hzero, Nat.toDigits_zero, ← List.replicate_succ'] at hk
        exact ⟨k + 1, by rw [hzero, mul_zero, zero_add, hlast, ← hk]⟩
      · refine ⟨k, ?_⟩
        rw [← Nat.toDigits_append_toDigits (by norm_num) hpos hlt, hlast, ← List.append_assoc, ← hk]

end Seamark.Text
