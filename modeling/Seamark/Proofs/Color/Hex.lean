import Mathlib
import Seamark.Color.Hex
import Seamark.Proofs.Color.Sectors

/-!
# Colours in hexadecimal digits

Which texts are read as a colour (`channels?_isSome_iff`), and that a text of hexadecimal digits is
written again as it was read, but in capitals and with two digits for each channel
(`toHex_ofHex`).  A text of hexadecimal digits is always read (`IsHexText.isReadable`), but it is
not the only kind of text that is: a pair may be a digit with a sign in front or a space beside it,
and digits of other scripts count.
-/

namespace Seamark.Color

open Seamark.Text

/-! ### Digits -/

/-- The letters among the hexadecimal digits. -/
def hexLetters : List Char := ['a', 'b', 'c', 'd', 'e', 'f', 'A', 'B', 'C', 'D', 'E', 'F']

/-- The hexadecimal digits, the letters in either case. -/
def hexDigits : List Char := ['0', '1', '2', '3', '4', '5', '6', '7', '8', '9'] ++ hexLetters

/-- A hexadecimal digit. -/
def IsHexDigit (c : Char) : Prop := c ∈ hexDigits

instance : DecidablePred IsHexDigit := fun c => inferInstanceAs (Decidable (c ∈ hexDigits))

/-- A character that is read as a hexadecimal digit: a decimal digit of any script, or a letter. -/
def CountsAsDigit (c : Char) : Prop := isDigit c = true ∨ c ∈ hexLetters

lemma toNat_toLower (c : Char) :
    c.toLower.toNat = if 65 ≤ c.toNat ∧ c.toNat ≤ 90 then c.toNat + 32 else c.toNat := by
  have hupper : c.isUpper = true ↔ 65 ≤ c.toNat ∧ c.toNat ≤ 90 := by
    simp [Char.isUpper, UInt32.le_iff_toNat_le]
  by_cases h : c.isUpper = true
  · have hval := hupper.mp h
    rw [if_pos hval, Char.toLower_eq_of_isUpper h, Char.toNat_ofNat, if_pos]
    exact Or.inl (by omega)
  · rw [if_neg (fun hval => h (hupper.mpr hval)), Char.toLower_eq_of_not_isUpper h]

/-- The letters that count are those of the digits from ten to fifteen, in either case. -/
lemma letter_iff (c : Char) :
    'a'.toNat ≤ c.toLower.toNat ∧ c.toLower.toNat ≤ 'f'.toNat ↔ c ∈ hexLetters := by
  have ha : 'a'.toNat = 97 := rfl
  have hf : 'f'.toNat = 102 := rfl
  have hlist : hexLetters.map Char.toNat =
      [97, 98, 99, 100, 101, 102, 65, 66, 67, 68, 69, 70] := by decide
  have hmem : c ∈ hexLetters ↔ c.toNat ∈ hexLetters.map Char.toNat := by
    rw [List.mem_map_of_injective]
    exact fun _ _ => Char.toNat_inj.mp
  rw [toNat_toLower, ha, hf, hmem, hlist]
  simp only [List.mem_cons, List.not_mem_nil, or_false]
  split_ifs <;> omega

lemma digitValue?_lt {c : Char} {d : ℕ} (h : digitValue? c = some d) : d < 10 := by
  obtain ⟨z, -, hz⟩ := List.exists_of_findSome?_eq_some h
  split_ifs at hz with hrange
  cases hz
  omega

lemma hexValue?_isSome_iff (c : Char) : (hexValue? c).isSome = true ↔ CountsAsDigit c := by
  rw [CountsAsDigit, isDigit, hexValue?]
  cases digitValue? c with
  | some d => simp
  | none =>
    have hletter := letter_iff c
    dsimp only
    split_ifs with h <;> simp_all

/-- A digit has a value below sixteen. -/
lemma hexValue?_bounds {c : Char} {x : ℤ} (h : hexValue? c = some x) : 0 ≤ x ∧ x < 16 := by
  rw [hexValue?] at h
  cases hd : digitValue? c with
  | some d =>
    have hlt := digitValue?_lt hd
    rw [hd] at h
    cases h
    omega
  | none =>
    rw [hd] at h
    dsimp only at h
    split_ifs at h with hletter
    have ha : 'a'.toNat = 97 := rfl
    have hf : 'f'.toNat = 102 := rfl
    cases h
    omega

/-- A hexadecimal digit is read as the number whose digit it is. -/
lemma exists_hexValue?_eq {c : Char} (h : IsHexDigit c) :
    ∃ n : ℕ, n < 16 ∧ hexValue? c = some (n : ℤ) ∧ (Nat.digitChar n).toUpper = c.toUpper := by
  have hall : hexDigits.Forall fun c =>
      ∃ n : ℕ, n < 16 ∧ hexValue? c = some (n : ℤ) ∧ (Nat.digitChar n).toUpper = c.toUpper := by
    decide
  exact List.forall_iff_forall_mem.mp hall c h

/-! ### Pairs -/

/-- Two characters that are read as a number: two digits, or a digit that has a sign in front of it
or a space beside it. -/
def IsPair (a b : Char) : Prop :=
  CountsAsDigit a ∧ CountsAsDigit b ∨
    (a = '-' ∨ a = '+' ∨ Decimal.isMargin a = true) ∧ CountsAsDigit b ∨
    CountsAsDigit a ∧ Decimal.isMargin b = true

lemma pairValue?_isSome_iff (a b : Char) : (pairValue? a b).isSome = true ↔ IsPair a b := by
  rw [IsPair, ← hexValue?_isSome_iff, ← hexValue?_isSome_iff, pairValue?]
  cases hexValue? a <;> cases hexValue? b
  · simp
  · dsimp only
    split_ifs <;> simp_all
  · simp
  · simp

/-- A pair of characters denotes a number of two digits, or the opposite of one digit if it starts
with a minus. -/
lemma pairValue?_bounds {a b : Char} {n : ℤ} (h : pairValue? a b = some n) :
    -15 ≤ n ∧ n ≤ 255 ∧ (a ≠ '-' → 0 ≤ n) := by
  rw [pairValue?] at h
  cases ha : hexValue? a with
  | none =>
    cases hb : hexValue? b with
    | none => simp [ha, hb] at h
    | some y =>
      have hy := hexValue?_bounds hb
      simp only [ha, hb] at h
      split_ifs at h with hminus <;> cases h
      · exact ⟨by omega, by omega, fun hne => absurd hminus hne⟩
      · exact ⟨by omega, by omega, fun _ => hy.1⟩
  | some x =>
    have hx := hexValue?_bounds ha
    cases hb : hexValue? b with
    | none =>
      simp only [ha, hb] at h
      split_ifs at h
      cases h
      exact ⟨by omega, by omega, fun _ => hx.1⟩
    | some y =>
      have hy := hexValue?_bounds hb
      simp only [ha, hb] at h
      cases h
      exact ⟨by omega, by omega, fun _ => by omega⟩

/-! ### Texts -/

/-- A text without the number signs in front. -/
def bare (text : String) : List Char := text.toList.dropWhile (· = '#')

/-- The characters of the channels: each of three is doubled. -/
def sixDigits (cs : List Char) : List Char :=
  if cs.length = 3 then cs.flatMap fun c => [c, c] else cs

/-- A colour in hexadecimal digits: three or six of them, after any number of number signs. -/
def IsHexText (text : String) : Prop :=
  ((bare text).length = 3 ∨ (bare text).length = 6) ∧ ∀ c ∈ bare text, IsHexDigit c

instance : DecidablePred IsHexText := fun text =>
  have := List.decidableBAll IsHexDigit (bare text)
  inferInstanceAs (Decidable (_ ∧ ∀ c ∈ bare text, IsHexDigit c))

/-- A text that is read as a colour: its channels are three pairs. -/
def IsReadable (text : String) : Prop :=
  ∃ a b c d e f, sixDigits (bare text) = [a, b, c, d, e, f] ∧ IsPair a b ∧ IsPair c d ∧ IsPair e f

lemma sixCharacters?_eq (cs : List Char) :
    sixCharacters? cs = if (sixDigits cs).length = 6 then some (sixDigits cs) else none := by
  rcases cs with _ | ⟨a, _ | ⟨b, _ | ⟨c, _ | ⟨d, cs⟩⟩⟩⟩ <;> simp [sixCharacters?, sixDigits]

lemma eq_of_length_eq_six {cs : List Char} (h : cs.length = 6) :
    ∃ a b c d e f, cs = [a, b, c, d, e, f] := by
  rcases cs with _ | ⟨a, _ | ⟨b, _ | ⟨c, _ | ⟨d, _ | ⟨e, _ | ⟨f, _ | ⟨g, cs⟩⟩⟩⟩⟩⟩⟩ <;> simp at h
  exact ⟨a, b, c, d, e, f, rfl⟩

/-- The channel numbers of a text of three pairs are the numbers of the pairs. -/
lemma channels?_eq_some_iff {text : String} {n : ℤ × ℤ × ℤ} :
    channels? text = some n ↔
      ∃ a b c d e f, sixDigits (bare text) = [a, b, c, d, e, f] ∧ pairValue? a b = some n.1 ∧
        pairValue? c d = some n.2.1 ∧ pairValue? e f = some n.2.2 := by
  rw [channels?, ← bare, sixCharacters?_eq]
  by_cases hlength : (sixDigits (bare text)).length = 6
  · obtain ⟨a, b, c, d, e, f, hsix⟩ := eq_of_length_eq_six hlength
    rw [if_pos hlength, hsix]
    constructor
    · intro h
      simp only [bind, Option.bind_eq_some_iff, Option.some.injEq, exists_eq_left', pure] at h
      obtain ⟨r, hr, g, hg, b', hb, rfl⟩ := h
      exact ⟨a, b, c, d, e, f, rfl, hr, hg, hb⟩
    · rintro ⟨a', b', c', d', e', f', heq, hr, hg, hb⟩
      cases heq
      simp [hr, hg, hb]
  · rw [if_neg hlength]
    simp only [bind, Option.bind_none, reduceCtorEq, false_iff]
    rintro ⟨a, b, c, d, e, f, hsix, -⟩
    exact hlength (by rw [hsix]; rfl)

lemma channels?_isSome_iff (text : String) :
    (channels? text).isSome = true ↔ IsReadable text := by
  rw [Option.isSome_iff_exists]
  constructor
  · rintro ⟨n, hn⟩
    obtain ⟨a, b, c, d, e, f, hsix, hr, hg, hb⟩ := channels?_eq_some_iff.mp hn
    refine ⟨a, b, c, d, e, f, hsix, ?_, ?_, ?_⟩ <;> rw [← pairValue?_isSome_iff] <;> simp [*]
  · rintro ⟨a, b, c, d, e, f, hsix, hr, hg, hb⟩
    rw [← pairValue?_isSome_iff, Option.isSome_iff_exists] at hr hg hb
    obtain ⟨r, hr⟩ := hr
    obtain ⟨g, hg⟩ := hg
    obtain ⟨b', hb⟩ := hb
    exact ⟨(r, g, b'), channels?_eq_some_iff.mpr ⟨a, b, c, d, e, f, hsix, hr, hg, hb⟩⟩

instance : DecidablePred IsReadable := fun text => decidable_of_iff _ (channels?_isSome_iff text)

lemma mem_bare_of_mem_sixDigits {text : String} {c : Char} (h : c ∈ sixDigits (bare text)) :
    c ∈ bare text := by
  rw [sixDigits] at h
  split_ifs at h
  · obtain ⟨d, hd, hc⟩ := List.mem_flatMap.mp h
    obtain rfl : c = d := by simpa using hc
    exact hd
  · exact h

/-- Channel numbers are numbers of two digits, and not negative unless there is a minus. -/
lemma channels?_bounds {text : String} {n : ℤ × ℤ × ℤ} (h : channels? text = some n) :
    ∀ m ∈ [n.1, n.2.1, n.2.2], -15 ≤ m ∧ m ≤ 255 ∧ ('-' ∉ bare text → 0 ≤ m) := by
  obtain ⟨a, b, c, d, e, f, hsix, hr, hg, hb⟩ := channels?_eq_some_iff.mp h
  have hmem (x : Char) (hx : x ∈ [a, b, c, d, e, f]) : x ∈ bare text :=
    mem_bare_of_mem_sixDigits (hsix ▸ hx)
  have hbounds {x y : Char} {m : ℤ} (hx : x ∈ [a, b, c, d, e, f]) (hm : pairValue? x y = some m) :
      -15 ≤ m ∧ m ≤ 255 ∧ ('-' ∉ bare text → 0 ≤ m) := by
    obtain ⟨hlo, hhi, hminus⟩ := pairValue?_bounds hm
    exact ⟨hlo, hhi, fun hnone => hminus fun hx' => hnone (hx' ▸ hmem x hx)⟩
  intro m hm
  simp only [List.mem_cons, List.not_mem_nil, or_false] at hm
  rcases hm with rfl | rfl | rfl
  · exact hbounds (by simp) hr
  · exact hbounds (by simp) hg
  · exact hbounds (by simp) hb

lemma IsHexDigit.countsAsDigit {c : Char} (h : IsHexDigit c) : CountsAsDigit c := by
  obtain ⟨n, -, hvalue, -⟩ := exists_hexValue?_eq h
  rw [← hexValue?_isSome_iff, hvalue]
  rfl

namespace IsHexText

variable {text : String}

/-- The digits of the channels. -/
lemma exists_sixDigits (h : IsHexText text) :
    ∃ a b c d e f, sixDigits (bare text) = [a, b, c, d, e, f] ∧
      ∀ x ∈ [a, b, c, d, e, f], IsHexDigit x := by
  obtain ⟨hlength, hdigits⟩ := h
  have hsix : (sixDigits (bare text)).length = 6 := by
    rw [sixDigits]
    split_ifs with hthree
    · simp [List.length_flatMap, hthree]
    · exact hlength.resolve_left hthree
  obtain ⟨a, b, c, d, e, f, heq⟩ := eq_of_length_eq_six hsix
  exact ⟨a, b, c, d, e, f, heq, fun x hx => hdigits x (mem_bare_of_mem_sixDigits (heq ▸ hx))⟩

lemma isReadable (h : IsHexText text) : IsReadable text := by
  obtain ⟨a, b, c, d, e, f, hsix, hdigits⟩ := h.exists_sixDigits
  have hcounts (x : Char) (hx : x ∈ [a, b, c, d, e, f]) := (hdigits x hx).countsAsDigit
  exact ⟨a, b, c, d, e, f, hsix, Or.inl ⟨hcounts a (by simp), hcounts b (by simp)⟩,
    Or.inl ⟨hcounts c (by simp), hcounts d (by simp)⟩,
    Or.inl ⟨hcounts e (by simp), hcounts f (by simp)⟩⟩

end IsHexText

/-- The texts of hexadecimal digits are the readable texts without any other characters. -/
lemma isHexText_iff (text : String) :
    IsHexText text ↔ IsReadable text ∧ ∀ c ∈ bare text, IsHexDigit c := by
  refine ⟨fun h => ⟨h.isReadable, h.2⟩, ?_⟩
  rintro ⟨⟨a, b, c, d, e, f, hsix, -⟩, hdigits⟩
  refine ⟨?_, hdigits⟩
  rw [sixDigits] at hsix
  split_ifs at hsix with hthree
  · exact Or.inl hthree
  · exact Or.inr (by rw [hsix]; rfl)

/-! ### Writing -/

/-- A number of two digits is written with the two digits. -/
lemma hexPair_eq {x y : ℕ} (hx : x < 16) (hy : y < 16) :
    hexPair (16 * x + y) =
      String.ofList [(Nat.digitChar x).toUpper, (Nat.digitChar y).toUpper] := by
  have hnat : (16 * x + y : ℤ).natAbs = 16 * x + y := by omega
  have hpositive : ¬ (16 * x + y : ℤ) < 0 := by omega
  simp only [hexPair, hnat, if_neg hpositive]
  rcases Nat.eq_zero_or_pos x with rfl | hpos
  · rw [mul_zero, zero_add, Nat.toDigits_of_lt_base hy]
    rfl
  · rw [← Nat.toDigits_append_toDigits (by norm_num) hpos hy, Nat.toDigits_of_lt_base hx,
      Nat.toDigits_of_lt_base hy]
    rfl

lemma hexPair_pairValue? {a b : Char} (ha : IsHexDigit a) (hb : IsHexDigit b) :
    ∃ n, pairValue? a b = some n ∧ 0 ≤ n ∧ n ≤ 255 ∧
      hexPair n = String.ofList [a.toUpper, b.toUpper] := by
  obtain ⟨x, hx, hvalue, hupper⟩ := exists_hexValue?_eq ha
  obtain ⟨y, hy, hvalue', hupper'⟩ := exists_hexValue?_eq hb
  refine ⟨16 * x + y, by simp [pairValue?, hvalue, hvalue'], by omega, by omega, ?_⟩
  rw [hexPair_eq hx hy, hupper, hupper']

/-- The channel of a channel number has this number. -/
lemma channelNumber_ofInt (n : ℤ) : channelNumber (Scalar.ofInt n / 255.0 : ℚ) = .ok n := by
  have hchannel : (Scalar.ofInt n / 255.0 * 255.0 : ℚ) = n := by
    have hint : (Scalar.ofInt n : ℚ) = n := rfl
    rw [hint]
    norm_num
  rw [channelNumber, hchannel, round_intCast]

lemma isShare_ofInt {n : ℤ} (hlo : 0 ≤ n) (hhi : n ≤ 255) :
    IsShare (Scalar.ofInt n / 255.0 : ℚ) := by
  have hint : (Scalar.ofInt n : ℚ) = n := rfl
  have hlo' : (0 : ℚ) ≤ n := by exact_mod_cast hlo
  have hhi' : (n : ℚ) ≤ 255 := by exact_mod_cast hhi
  rw [isShare_rat, hint]
  norm_num
  exact ⟨by positivity, by linarith⟩

/-- A text of hexadecimal digits is read as a colour that is written with its digits. -/
lemma IsHexText.exists_ofHex {text : String} (h : IsHexText text) :
    ∃ hsv : Hsv ℚ, ofHex text = .ok hsv ∧ hsv.IsProper ∧
      toHex hsv = .ok ("#" ++ String.ofList ((sixDigits (bare text)).map Char.toUpper)) := by
  obtain ⟨a, b, c, d, e, f, hsix, hdigits⟩ := h.exists_sixDigits
  obtain ⟨r, hr, hrlo, hrhi, hrpair⟩ :=
    hexPair_pairValue? (hdigits a (by simp)) (hdigits b (by simp))
  obtain ⟨g, hg, hglo, hghi, hgpair⟩ :=
    hexPair_pairValue? (hdigits c (by simp)) (hdigits d (by simp))
  obtain ⟨b', hb, hblo, hbhi, hbpair⟩ :=
    hexPair_pairValue? (hdigits e (by simp)) (hdigits f (by simp))
  have hchannels : channels? text = some (r, g, b') :=
    channels?_eq_some_iff.mpr ⟨a, b, c, d, e, f, hsix, hr, hg, hb⟩
  have hproper : (ofChannels r g b' : Rgb ℚ).IsProper :=
    ⟨isShare_ofInt hrlo hrhi, isShare_ofInt hglo hghi, isShare_ofInt hblo hbhi⟩
  obtain ⟨hsv, hto, hhsv, hback⟩ := Rgb.exists_toHsv hproper
  refine ⟨hsv, ?_, hhsv, ?_⟩
  · rw [ofHex, hchannels]
    exact hto
  · rw [toHex, hback, hsix]
    simp only [bind, Except.bind, ofChannels, channelNumber_ofInt, hrpair, hgpair, hbpair]
    simp only [pure, Except.pure, List.map_cons, List.map_nil, Except.ok.injEq]
    rw [String.append_assoc, String.append_assoc, ← String.ofList_append, ← String.ofList_append]
    rfl

lemma bare_replicate (n : ℕ) {ds : List Char} (hdigits : ∀ d ∈ ds, IsHexDigit d) :
    bare (String.ofList (List.replicate n '#' ++ ds)) = ds := by
  have hsigns : (List.replicate n '#').dropWhile (· = '#') = [] := by
    rw [List.dropWhile_eq_nil_iff]
    intro c hc
    simp [List.eq_of_mem_replicate hc]
  have hhead : ds.dropWhile (· = '#') = ds := by
    cases ds with
    | nil => rfl
    | cons d ds =>
      have hne : d ≠ '#' := by
        rintro rfl
        exact absurd (hdigits '#' (by simp)) (by decide)
      rw [List.dropWhile_cons_of_neg (by simpa using hne)]
  rw [bare, String.toList_ofList, List.dropWhile_append, hsigns]
  simpa using hhead

/-- **Reading and writing colours.**  Hue, saturation and value of channels have these channels, and
so a text of three or six hexadecimal digits, after any number of number signs, is written again as
a number sign and its six digits in capitals. -/
theorem toHex_ofHex :
    (∀ c : Rgb ℚ, c.IsProper → c.toHsv >>= Hsv.toRgb = .ok c) ∧
      ∀ (n : ℕ) (ds : List Char), ds.length = 3 ∨ ds.length = 6 → (∀ d ∈ ds, IsHexDigit d) →
        ((ofHex (String.ofList (List.replicate n '#' ++ ds)) : Except ColorError (Hsv ℚ)) >>=
          toHex) = .ok ("#" ++ String.ofList ((sixDigits ds).map Char.toUpper)) := by
  refine ⟨fun c hc => ?_, fun n ds hlength hdigits => ?_⟩
  · obtain ⟨hsv, hto, -, hback⟩ := Rgb.exists_toHsv hc
    rw [hto]
    exact hback
  · have hbare := bare_replicate n hdigits
    have htext : IsHexText (String.ofList (List.replicate n '#' ++ ds)) := by
      rw [IsHexText, hbare]
      exact ⟨hlength, hdigits⟩
    obtain ⟨hsv, hread, -, hwritten⟩ := htext.exists_ofHex
    rw [hbare] at hwritten
    rw [hread]
    exact hwritten

/-- A channel below the others, and a text of three small letters. -/
theorem toHex_ofHex_amber :
    (Rgb.IsProper ⟨1, 3 / 4, (0 : ℚ)⟩ ∧
      (⟨1, 3 / 4, 0⟩ : Rgb ℚ).toHsv >>= Hsv.toRgb = .ok ⟨1, 3 / 4, 0⟩) ∧
    ((ofHex "##fb0" : Except ColorError (Hsv ℚ)) >>= toHex) = .ok "#FFBB00" := by
  have hproper : Rgb.IsProper ⟨1, 3 / 4, (0 : ℚ)⟩ := by
    constructor <;> rw [isShare_rat] <;> norm_num
  refine ⟨⟨hproper, toHex_ofHex.1 _ hproper⟩, ?_⟩
  exact toHex_ofHex.2 2 ['f', 'b', '0'] (Or.inl rfl) (List.forall_iff_forall_mem.mp (by decide))

end Seamark.Color
