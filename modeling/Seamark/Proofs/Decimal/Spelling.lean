import Mathlib
import Seamark.Proofs.Characteristic.Reading
import Seamark.Proofs.Decimal.Shortest
import Seamark.Proofs.Text.Digits
import Seamark.Proofs.Text.Pieces

/-!
# Reading what is spelled

A number is spelled with the digits of its shortest decimal, with a point in its place or with an
exponent.  A reader of digits and a point takes the first spelling as a whole, and so reads a
decimal of the same number (`takeDecimal?_positional`).  Of the second it takes no more than what
stands before the exponent, a number from 1 to 10 (`takeDecimal?_scientific`).  The point is written
for the doubles from a ten-thousandth up to `10 ^ 16` (`isPositional_iff`).
-/

namespace Seamark

open Double Text Characteristic

namespace Decimal

variable {d : Decimal}

/-! ### Stripped decimals -/

/-- What is moved into the exponent are zeros. -/
lemma exists_strip_eq (hd : 0 < d.digits) :
    ∃ k : ℕ, d.strip = ⟨d.strip.digits, d.exponent + k⟩ ∧ d.digits = d.strip.digits * 10 ^ k := by
  obtain ⟨digits, hdigits⟩ : ∃ digits, Nat.toDigits 10 d.digits = digits := ⟨_, rfl⟩
  obtain ⟨kept, hkept⟩ : ∃ kept, (digits.reverse.dropWhile (· == '0')).reverse = kept := ⟨_, rfl⟩
  obtain ⟨zeros, hzeros⟩ : ∃ zeros, (digits.reverse.takeWhile (· == '0')).reverse = zeros :=
    ⟨_, rfl⟩
  have hall : ∀ c ∈ digits, c.isDigit = true := fun c hc => isDigit_of_mem_toDigits (hdigits ▸ hc)
  have hsplit : kept ++ zeros = digits := by
    rw [← hkept, ← hzeros]
    exact List.append_takeWhile_reverse _ digits
  have hrepeat : zeros = List.replicate zeros.length '0' := by
    refine List.eq_replicate_length.mpr fun c hc => ?_
    rw [← hzeros, List.mem_reverse] at hc
    exact beq_iff_eq.mp (List.mem_takeWhile_imp (p := (· == '0')) hc)
  have hvalue : d.digits = digitsValue kept * 10 ^ zeros.length := by
    rw [← digitsValue_toDigits d.digits, hdigits, ← hsplit, digitsValue_append,
      hrepeat, digitsValue_zeros, List.length_replicate, add_zero]
  have hall' : ∀ c ∈ kept, c.isDigit = true := fun c hc =>
    hall c (hsplit ▸ List.mem_append_left zeros hc)
  have hread : (String.ofList kept).toNat? = some (digitsValue kept) := by
    have hne : kept ≠ [] := by
      rintro rfl
      rw [hvalue] at hd
      exact absurd hd (by simp [digitsValue])
    have hnat : (String.ofList kept).isNat = true :=
      String.isNat_of_isDigit (by simpa using hne) (by simpa using hall')
    have hplain : kept.filter (· != '_') = kept := by
      refine List.filter_eq_self.mpr fun c hc => bne_iff_ne.mpr ?_
      rintro rfl
      exact absurd (hall' _ hc) (by decide)
    rw [String.toNat?_eq_some_ofDigitChars hnat, String.toList_ofList, hplain, digitsValue_eq hall']
  have hstrip : d.strip = ⟨digitsValue kept, d.exponent + zeros.length⟩ := by
    have hlength : digits.length - kept.length = zeros.length := by
      rw [← hsplit, List.length_append, Nat.add_sub_cancel_left]
    simp only [strip, hdigits, hkept, hread, Option.getD_some, hlength]
  exact ⟨zeros.length, by rw [hstrip], by rw [hstrip, hvalue]⟩

/-- Moving zeros into the exponent does not change the number. -/
lemma toRat_strip (hd : 0 < d.digits) : d.strip.toRat = d.toRat := by
  obtain ⟨k, hstrip, hdigits⟩ := exists_strip_eq hd
  rw [toRat_eq, toRat_eq, hdigits, hstrip, zpow_add₀ (by norm_num), zpow_natCast]
  push_cast
  ring

lemma strip_digits_pos (hd : 0 < d.digits) : 0 < d.strip.digits := by
  obtain ⟨k, -, hdigits⟩ := exists_strip_eq hd
  rw [hdigits] at hd
  exact Nat.pos_of_mul_pos_right hd

/-- Decimals of the same number have the same places before the point. -/
lemma places_eq_of_toRat_eq {e : Decimal} (hd : 0 < d.digits) (he : 0 < e.digits)
    (h : d.toRat = e.toRat) : d.places = e.places := by
  have hle : ∀ {a b : Decimal}, 0 < a.digits → a.toRat = b.toRat → a.places ≤ b.places := by
    intro a b ha hab
    have hlt : (10 : ℚ) ^ (a.places - 1) < 10 ^ b.places :=
      (le_toRat ha).trans_lt (hab ▸ toRat_lt b)
    have := (zpow_lt_zpow_iff_right₀ (by norm_num : (1 : ℚ) < 10)).mp hlt
    omega
  exact le_antisymm (hle hd h) (hle he h.symm)

/-! ### Reading digits and a point -/

section

variable {whole fraction rest : List Char}

/-- Digits with a point are taken up to what is no digit. -/
lemma takeDecimal?_pointed (hdigits : ∀ c ∈ whole ++ fraction, isDigit c = true)
    (hne : whole ++ fraction ≠ []) (hrest : ∀ c ∈ rest.head?, isDigit c = false) :
    takeDecimal? (whole ++ '.' :: fraction ++ rest) =
      some (⟨digitsValue (whole ++ fraction), -fraction.length⟩, rest) := by
  have hleads : WrittenPeriod.Leads ⟨whole, some fraction, rest⟩ :=
    ⟨hdigits, hne, fun c hc => ⟨hrest c hc, nofun⟩⟩
  exact hleads.takeDecimal?

/-- Digits without a point are taken up to what is neither a digit nor a point. -/
lemma takeDecimal?_whole (hdigits : ∀ c ∈ whole, isDigit c = true) (hne : whole ≠ [])
    (hrest : ∀ c ∈ rest.head?, isDigit c = false ∧ c ≠ '.') :
    takeDecimal? (whole ++ rest) = some (⟨digitsValue whole, 0⟩, rest) := by
  have hleads : WrittenPeriod.Leads ⟨whole, none, rest⟩ := by
    refine ⟨?_, ?_, fun c hc => ⟨(hrest c hc).1, fun _ => (hrest c hc).2⟩⟩
    · simpa [WrittenPeriod.decimals] using hdigits
    · simpa [WrittenPeriod.decimals] using hne
  have htake := hleads.takeDecimal?
  simpa [WrittenPeriod.chars, WrittenPeriod.decimal, WrittenPeriod.decimals] using htake

end

/-- The digits of a number in any script. -/
lemma isDigit_toDigits (n : ℕ) : ∀ c ∈ Nat.toDigits 10 n, isDigit c = true :=
  fun _ hc => isDigit_of_isDigit (isDigit_of_mem_toDigits hc)

lemma isDigit_zeros (k : ℕ) : ∀ c ∈ List.replicate k '0', isDigit c = true := by
  intro c hc
  rw [List.eq_of_mem_replicate hc]
  rfl

/-- Characters are digits with a point, and say a number. -/
def IsPointed (cs : List Char) (q : ℚ) : Prop :=
  ∃ whole fraction, cs = whole ++ '.' :: fraction ∧
    (∀ c ∈ whole ++ fraction, isDigit c = true) ∧ whole ++ fraction ≠ [] ∧
    toRat ⟨digitsValue (whole ++ fraction), -fraction.length⟩ = q

section

variable {digits : List Char}

/-- Zeros stand between the point and the digits. -/
lemma isPointed_zeros_before {k : ℕ} (hall : ∀ c ∈ digits, isDigit c = true)
    (hvalue : digitsValue digits = d.digits) (hk : d.exponent = -(k + digits.length : ℕ)) :
    IsPointed ('0' :: '.' :: List.replicate k '0' ++ digits) d.toRat := by
  refine ⟨['0'], List.replicate k '0' ++ digits, rfl, ?_, List.cons_ne_nil _ _, ?_⟩
  · rw [← List.append_assoc]
    exact List.forall_mem_append.mpr ⟨isDigit_zeros (k + 1), hall⟩
  · have hzeros : digitsValue (['0'] ++ List.replicate k '0') = 0 := digitsValue_zeros (k + 1)
    rw [← List.append_assoc, digitsValue_append, hzeros, zero_mul, zero_add, hvalue,
      List.length_append, List.length_replicate, ← hk]

/-- Zeros stand between the digits and the point. -/
lemma isPointed_zeros_behind {k : ℕ} (hall : ∀ c ∈ digits, isDigit c = true)
    (hvalue : digitsValue digits = d.digits) (hk : d.exponent = k) :
    IsPointed (digits ++ List.replicate k '0' ++ ['.', '0']) d.toRat := by
  have hzeros : digits ++ List.replicate k '0' ++ ['0'] = digits ++ List.replicate (k + 1) '0' := by
    rw [List.append_assoc, List.replicate_succ']
  refine ⟨digits ++ List.replicate k '0', ['0'], rfl, ?_, by simp, ?_⟩
  · rw [hzeros]
    exact List.forall_mem_append.mpr ⟨hall, isDigit_zeros (k + 1)⟩
  · have htenth : -((['0'] : List Char).length : ℤ) = -1 := rfl
    rw [hzeros, digitsValue_append, digitsValue_zeros, hvalue, add_zero,
      List.length_replicate, htenth, toRat_eq, toRat_eq, hk, zpow_natCast, zpow_neg_one]
    push_cast
    rw [pow_succ, ← mul_assoc, mul_inv_cancel_right₀ (by norm_num)]

/-- The point stands among the digits. -/
lemma isPointed_among {k : ℕ} (hall : ∀ c ∈ digits, isDigit c = true) (hne : digits ≠ [])
    (hvalue : digitsValue digits = d.digits) (hk : d.exponent = -(digits.length - k : ℕ)) :
    IsPointed (digits.take k ++ '.' :: digits.drop k) d.toRat := by
  refine ⟨digits.take k, digits.drop k, rfl, ?_, ?_, ?_⟩
  · rwa [List.take_append_drop]
  · rwa [List.take_append_drop]
  · rw [List.take_append_drop, hvalue, List.length_drop, ← hk]

end

/-- A decimal is written as digits with a point that say its number. -/
lemma isPointed_positional (d : Decimal) : IsPointed d.positional.toList d.toRat := by
  obtain ⟨digits, hdigits⟩ : ∃ digits, Nat.toDigits 10 d.digits = digits := ⟨_, rfl⟩
  have hall : ∀ c ∈ digits, isDigit c = true := hdigits ▸ isDigit_toDigits d.digits
  have hvalue : digitsValue digits = d.digits := hdigits ▸ digitsValue_toDigits d.digits
  have hne : digits ≠ [] := hdigits ▸ Nat.toDigits_ne_nil
  have hplaces : d.places = digits.length + d.exponent := by rw [places, hdigits]
  rw [positional, hdigits, String.toList_ofList]
  split_ifs with hsmall hlarge
  · exact isPointed_zeros_before hall hvalue (by omega)
  · exact isPointed_zeros_behind hall hvalue (Int.toNat_of_nonneg hlarge).symm
  · exact isPointed_among hall hne hvalue (by omega)

/-- **A decimal with the point in its place is read as a decimal of the same number**, whatever
follows it but a digit. -/
lemma takeDecimal?_positional (d : Decimal) {rest : List Char}
    (hrest : ∀ c ∈ rest.head?, isDigit c = false) :
    ∃ e : Decimal, takeDecimal? (d.positional.toList ++ rest) = some (e, rest) ∧
      e.toRat = d.toRat := by
  obtain ⟨whole, fraction, hchars, hdigits, hne, hvalue⟩ := isPointed_positional d
  exact ⟨_, by rw [hchars, takeDecimal?_pointed hdigits hne hrest], hvalue⟩

/-- **Of a decimal with an exponent only what stands before it is read**, which counts from the
first digit. -/
lemma takeDecimal?_scientific (d : Decimal) (rest : List Char) :
    ∃ e after, takeDecimal? ((d.scientific false).toList ++ rest) = some (e, after) ∧
      e.toRat = d.toRat / 10 ^ (d.places - 1) := by
  obtain ⟨digits, hdigits⟩ : ∃ digits, Nat.toDigits 10 d.digits = digits := ⟨_, rfl⟩
  have hall : ∀ c ∈ digits, isDigit c = true := hdigits ▸ isDigit_toDigits d.digits
  have hvalue : digitsValue digits = d.digits := hdigits ▸ digitsValue_toDigits d.digits
  have hne : digits ≠ [] := hdigits ▸ Nat.toDigits_ne_nil
  obtain ⟨after, hafter⟩ :
      ∃ after, (exponentText (d.places - 1)).toList ++ rest = 'e' :: after := by
    rw [exponentText]
    split_ifs <;> simp
  have hstop : ∀ c ∈ ('e' :: after).head?, isDigit c = false ∧ c ≠ '.' := by
    simp only [List.head?_cons, Option.mem_some_iff, forall_eq']
    decide
  have hratio : d.toRat / 10 ^ (d.places - 1) = d.digits * 10 ^ (1 - (digits.length : ℤ)) := by
    rw [toRat_eq, mul_div_assoc, ← zpow_sub₀ (by norm_num), places, hdigits]
    congr 2
    omega
  rw [hratio, scientific, hdigits, String.toList_append, String.toList_ofList, List.append_assoc,
    hafter]
  rcases digits with _ | ⟨c, _ | ⟨c', cs⟩⟩
  · exact absurd rfl hne
  · -- a single digit has no point after it
    have htake : takeDecimal? ([c] ++ 'e' :: after) = _ := takeDecimal?_whole hall hne hstop
    refine ⟨_, _, htake, ?_⟩
    rw [toRat_eq, hvalue]
    rfl
  · have htake : takeDecimal? ([c] ++ '.' :: c' :: cs ++ 'e' :: after) = _ :=
      takeDecimal?_pointed hall hne fun x hx => (hstop x hx).1
    refine ⟨_, _, htake, ?_⟩
    have hexponent : -((c' :: cs).length : ℤ) = 1 - ((c :: c' :: cs).length : ℤ) := by
      simp only [List.length_cons]
      push_cast
      ring
    rw [toRat_eq, List.singleton_append, hvalue, hexponent]

end Decimal

/-! ### Doubles with a point -/

open Decimal

lemma ten_thousandth_eq : (0.0001 : Float) = rounded (10 ^ (-4 : ℤ)) := by
  have hread := float_ofScientific_neg (n := 1) (e := 4) (by norm_num) (by norm_num) (by omega)
  have hpower : ((1 : ℕ) : ℚ) / 10 ^ 4 = 10 ^ (-4 : ℤ) := by norm_num
  rw [hpower] at hread
  exact hread

lemma ten_quadrillion_eq : (1e16 : Float) = rounded (10 ^ (16 : ℤ)) := by
  have hread := float_ofScientific_nonneg (n := 1) (e := 16) (by norm_num) (by norm_num)
  have hpower : ((1 : ℕ) : ℚ) * 10 ^ 16 = 10 ^ (16 : ℤ) := by norm_num
  rw [hpower] at hread
  exact hread

/-- A decimal of more than `k` places is no smaller as a double than `10 ^ k`. -/
lemma value_power_le {d : Decimal} {k : ℤ} (hd : 0 < d.digits) (hk : k < d.places)
    (hlt : d.toRat < overflow) : value (rounded (10 ^ k)) ≤ value (rounded d.toRat) := by
  refine value_rounded_mono (ten_zpow_pos k) ?_ hlt
  calc (10 : ℚ) ^ k ≤ 10 ^ (d.places - 1) := zpow_le_zpow_right₀ (by norm_num) (by omega)
    _ ≤ d.toRat := le_toRat hd

/-- A decimal of at most `k` places is no larger as a double than `10 ^ k`. -/
lemma value_le_power {d : Decimal} {k : ℤ} (hd : 0 < d.digits) (hk : d.places ≤ k)
    (hlt : (10 : ℚ) ^ k < overflow) : value (rounded d.toRat) ≤ value (rounded (10 ^ k)) := by
  refine value_rounded_mono (toRat_pos hd) ?_ hlt
  calc d.toRat ≤ 10 ^ d.places := (toRat_lt d).le
    _ ≤ 10 ^ k := zpow_le_zpow_right₀ (by norm_num) hk

/-- The first double that is too large for a point. -/
lemma places_ten_quadrillion :
    ∃ b, doubleShape 1e16 = .finite false b ∧ b.shortest.places = 17 :=
  ⟨⟨5 ^ 16 * 2 ^ 15, 1⟩, by decide +kernel, by decide +kernel⟩

/-- The last double that is large enough for a point. -/
lemma places_ten_thousandth :
    ∃ b, doubleShape 0.0001 = .finite false b ∧ b.shortest.places = -3 :=
  ⟨⟨7378697629483821, -66⟩, by decide +kernel, by decide +kernel⟩

/-- **The point is written from a ten-thousandth up to `10 ^ 16`.** -/
lemma isPositional_iff {x : Float} (hx : IsNumber x) {b : Binary}
    (hb : doubleShape x = .finite false b) (hd : 0 < b.shortest.digits)
    (hround : rounded b.shortest.toRat = x) :
    -4 < b.shortest.places ∧ b.shortest.places ≤ 16 ↔ 0.0001 ≤ x ∧ x < 1e16 := by
  have hlow : IsNumber 0.0001 := rfl
  have hhigh : IsNumber 1e16 := rfl
  have hfinite {q : ℚ} (hq : 0 < q) (h : IsNumber (rounded q)) : q < overflow :=
    (isNumber_rounded_iff hq).mp h
  have hlt := hfinite (toRat_pos hd) (hround ▸ hx)
  have hlt₀ := hfinite (ten_zpow_pos (-4)) (ten_thousandth_eq ▸ hlow)
  have hlt₁ := hfinite (ten_zpow_pos 16) (ten_quadrillion_eq ▸ hhigh)
  -- an end that is the double itself is told by the places of its own shortest decimal
  have hends : ∀ {y : Float} {n : ℤ}, IsNumber y → 0 < value y →
      (∃ b, doubleShape y = .finite false b ∧ b.shortest.places = n) → b.shortest.places ≠ n →
      value x ≠ value y := by
    rintro y n hy hpos ⟨b', hb', hn⟩ hne heq
    rw [eq_of_value_eq hx hy (heq ▸ hpos) heq, hb', DoubleShape.finite.injEq] at hb
    exact hne (by rw [← hb.2, hn])
  have hnotLow := hends hlow (by decide +kernel) places_ten_thousandth
  have hnotHigh := hends hhigh (by decide +kernel) places_ten_quadrillion
  rw [le_iff_value hlow hx, lt_iff_value hx hhigh]
  rw [ten_thousandth_eq, ← hround] at hnotLow ⊢
  rw [ten_quadrillion_eq, ← hround] at hnotHigh
  rw [ten_quadrillion_eq]
  constructor
  · rintro ⟨hlo, hhi⟩
    exact ⟨value_power_le hd hlo hlt, lt_of_le_of_ne (value_le_power hd hhi hlt₁)
      (hnotHigh (by omega))⟩
  · rintro ⟨hlo, hhi⟩
    constructor
    · by_contra hsmall
      exact hnotLow (by omega) (le_antisymm (value_le_power hd (by omega) hlt₀) hlo)
    · by_contra hlarge
      exact hhi.not_ge (value_power_le hd (by omega) hlt)

/-- How a double is spelled whose shortest decimal is known. -/
lemma write_eq_of_shape (s : Spelling) {x : Float} {negative : Bool} {b : Binary} {d : Decimal}
    (hx : doubleShape x = .finite negative b) (hb : b.mantissa ≠ 0) (hd : b.shortest.strip = d) :
    s.write x = (if negative then "-" else "") ++
      if -4 < d.places ∧ d.places ≤ 16 then d.positional else d.scientific s.pointedMantissa := by
  rw [Spelling.write, hx]
  simp only [hd, if_neg hb]
  split_ifs <;> rfl

/-- **How a positive double is spelled**: as a decimal that is read as this double, with the point
in its place if the double is of middle size, and otherwise with an exponent. -/
lemma exists_write_eq {x : Float} (hx : IsNumber x) (hpos : 0 < value x) :
    ∃ d : Decimal, 0 < d.digits ∧ rounded d.toRat = x ∧
      (-4 < d.places ∧ d.places ≤ 16 ↔ 0.0001 ≤ x ∧ x < 1e16) ∧
      Spelling.plain.write x =
        if 0.0001 ≤ x ∧ x < 1e16 then d.positional else d.scientific false := by
  obtain ⟨b, hb, hm, hd, hround⟩ := Binary.rounded_shortest hx hpos
  have hd' := strip_digits_pos hd
  have hvalue := toRat_strip hd
  have hplaces := places_eq_of_toRat_eq hd' hd hvalue
  have hiff := isPositional_iff hx hb hd hround
  refine ⟨b.shortest.strip, hd', hvalue ▸ hround, hplaces ▸ hiff, ?_⟩
  rw [write_eq_of_shape _ hb hm.ne' rfl, hplaces, if_neg Bool.false_ne_true, String.empty_append]
  simp only [hiff]
  rfl

end Seamark
