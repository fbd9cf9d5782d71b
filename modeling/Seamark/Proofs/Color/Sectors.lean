import Seamark.Color.Basic
import Seamark.Proofs.Scalar

/-!
# Sectors of the colour circle

With exact numbers, a colour in a sector of the circle has one channel at its value, one below it by
the whole saturation, and one below it by a share of the saturation that is told by the place within
the sector (`toRgb_eq_inSector`).  At the two ends of a sector the share is nothing or the whole, so
neighbouring sectors agree where they meet.  Every hue of channels is found in the sector of its
greatest and its least channel (`exists_toHsv`), and going back gives the channels again.
-/

namespace Seamark

/-- A number from 0 to 1. -/
def IsShare {α : Type} [Scalar α] (x : α) : Prop := 0.0 ≤ x ∧ x ≤ 1.0

/-- A colour whose hue, saturation and value are numbers from 0 to 1. -/
structure Hsv.IsProper {α : Type} [Scalar α] (c : Hsv α) : Prop where
  /-- The place on the colour circle. -/
  hue : IsShare c.hue
  /-- How far the colour is from grey. -/
  saturation : IsShare c.saturation
  /-- How bright the colour is. -/
  value : IsShare c.value

/-- A colour whose channels are numbers from 0 to 1. -/
structure Rgb.IsProper {α : Type} [Scalar α] (c : Rgb α) : Prop where
  /-- The red channel. -/
  red : IsShare c.red
  /-- The green channel. -/
  green : IsShare c.green
  /-- The blue channel. -/
  blue : IsShare c.blue

lemma isShare_rat {x : ℚ} : IsShare x ↔ 0 ≤ x ∧ x ≤ 1 := by
  have hzero : (0.0 : ℚ) = 0 := by norm_num
  have hone : (1.0 : ℚ) = 1 := by norm_num
  rw [IsShare, hzero, hone]

/-! ### Channels of a colour -/

namespace Hsv

/-- A channel below the greatest one by a share of the saturation. -/
def shade (c : Hsv ℚ) (share : ℚ) : ℚ := c.value * (1 - c.saturation * share)

/-- The channels of a colour at a place within a sector of the colour circle. -/
def inSector (c : Hsv ℚ) (place : ℚ) : ℕ → Rgb ℚ
  | 0 => ⟨c.value, c.shade (1 - place), c.shade 1⟩
  | 1 => ⟨c.shade place, c.value, c.shade 1⟩
  | 2 => ⟨c.shade 1, c.value, c.shade (1 - place)⟩
  | 3 => ⟨c.shade 1, c.shade place, c.value⟩
  | 4 => ⟨c.shade (1 - place), c.shade 1, c.value⟩
  | _ => ⟨c.value, c.shade 1, c.shade place⟩

variable {c : Hsv ℚ}

/-- A colour is drawn by the formula of the sector that holds its hue. -/
lemma toRgb_of_floor {sector : ℕ} (hsaturation : c.saturation ≠ 0) (hhue : 0 ≤ c.hue)
    (hfloor : ⌊c.hue * 6⌋ = sector) :
    c.toRgb = .ok (c.inSector (c.hue * 6 - sector) (sector % 6)) := by
  have hzero : isZero c.saturation = false := by
    rw [isZero, beq_eq_false_iff_ne]
    intro h
    exact hsaturation (h.trans (by norm_num))
  have hsix : c.hue * (6.0 : ℚ) = c.hue * 6 := by norm_num
  have hmod : ((sector : ℤ) % 6) = ((sector % 6 : ℕ) : ℤ) := by push_cast; rfl
  have hint : (Scalar.ofInt (sector : ℤ) : ℚ) = sector := rfl
  have hone : (1.0 : ℚ) = 1 := by norm_num
  rw [toRgb, hzero, hsix, truncate_rat (by positivity), hfloor]
  simp only [Bool.false_eq_true, if_false, hmod, hint, hone]
  have hlt : sector % 6 < 6 := Nat.mod_lt _ (by decide)
  generalize sector % 6 = k at hlt
  interval_cases k <;> simp [inSector, shade]

/-- **The channels of a colour at a place in a sector.**  The places at the ends of a sector belong
to two sectors, which agree there. -/
lemma toRgb_eq_inSector {sector : ℕ} {place : ℚ} (hsector : sector < 6) (hlo : 0 ≤ place)
    (hhi : place ≤ 1) (hhue : c.hue * 6 = sector + place) :
    c.toRgb = .ok (c.inSector place sector) := by
  by_cases hgrey : c.saturation = 0
  · -- a grey has all channels at its value, whatever its hue
    have hzero : isZero c.saturation = true := by
      rw [isZero, beq_iff_eq, hgrey]
      norm_num
    rw [toRgb, hzero, if_pos rfl]
    interval_cases sector <;> simp [inSector, shade, hgrey]
  have hnonneg : 0 ≤ c.hue := by
    have : (0 : ℚ) ≤ sector := Nat.cast_nonneg sector
    linarith
  obtain hlt | rfl := lt_or_eq_of_le hhi
  · have hfloor : ⌊c.hue * 6⌋ = sector := by
      rw [Int.floor_eq_iff, hhue]
      push_cast
      exact ⟨by linarith, by linarith⟩
    rw [toRgb_of_floor hgrey hnonneg hfloor, hhue, Nat.mod_eq_of_lt hsector, add_sub_cancel_left]
  · -- the end of the sector is the start of the next one
    have hfloor : ⌊c.hue * 6⌋ = (sector + 1 : ℕ) := by
      rw [Int.floor_eq_iff, hhue]
      push_cast
      exact ⟨by linarith, by linarith⟩
    have hplace : (sector : ℚ) + 1 - (sector + 1 : ℕ) = 0 := by
      push_cast
      ring
    rw [toRgb_of_floor hgrey hnonneg hfloor, hhue, hplace]
    interval_cases sector <;> simp [inSector, shade]

lemma exists_sector {hue : ℚ} (hhue : IsShare hue) :
    ∃ sector : ℕ, sector < 6 ∧ ∃ place : ℚ, 0 ≤ place ∧ place ≤ 1 ∧ hue * 6 = sector + place := by
  obtain ⟨hlo, hhi⟩ := isShare_rat.mp hhue
  obtain hlt | rfl := lt_or_eq_of_le hhi
  · have hnonneg : 0 ≤ hue * 6 := by positivity
    refine ⟨⌊hue * 6⌋₊, (Nat.floor_lt hnonneg).mpr (by push_cast; linarith), hue * 6 - ⌊hue * 6⌋₊,
      ?_, ?_, by ring⟩
    · linarith [Nat.floor_le hnonneg]
    · linarith [Nat.lt_floor_add_one (hue * 6)]
  · exact ⟨5, by norm_num, 1, by norm_num, le_rfl, by norm_num⟩

/-- The hue and the saturation of a colour set for each channel which share of the value it has. -/
lemma exists_toRgb_eq {hue saturation : ℚ} (hhue : IsShare hue) (hsaturation : IsShare saturation) :
    ∃ w : Rgb ℚ, w.IsProper ∧
      ∀ value, (⟨hue, saturation, value⟩ : Hsv ℚ).toRgb =
        .ok ⟨value * w.red, value * w.green, value * w.blue⟩ := by
  obtain ⟨sector, hsector, place, hlo, hhi, heq⟩ := exists_sector hhue
  obtain ⟨hslo, hshi⟩ := isShare_rat.mp hsaturation
  have hshade (share : ℚ) (h0 : 0 ≤ share) (h1 : share ≤ 1) : IsShare (1 - saturation * share) := by
    have hmul : 0 ≤ saturation * share := mul_nonneg hslo h0
    have hmul' : saturation * share ≤ 1 := mul_le_one₀ hshi h0 h1
    exact isShare_rat.mpr ⟨by linarith, by linarith⟩
  have hone : IsShare (1 : ℚ) := isShare_rat.mpr ⟨zero_le_one, le_rfl⟩
  have hfull := hshade 1 zero_le_one le_rfl
  have hplace := hshade place hlo hhi
  have hrest := hshade (1 - place) (by linarith) (by linarith)
  refine ⟨(⟨hue, saturation, 1⟩ : Hsv ℚ).inSector place sector, ?_, fun value => ?_⟩
  · interval_cases sector <;> constructor <;> simpa only [inSector, shade, one_mul]
  · rw [toRgb_eq_inSector hsector hlo hhi heq]
    interval_cases sector <;> simp [inSector, shade]

end Hsv

/-! ### Hue, saturation and value of channels -/

namespace Rgb

/-- The greatest channel. -/
def most (c : Rgb ℚ) : ℚ := max (max c.red c.green) c.blue

/-- The least channel. -/
def least (c : Rgb ℚ) : ℚ := min (min c.red c.green) c.blue

/-- How far a channel is below the greatest one, in shares of what the channels differ by. -/
def depth (c : Rgb ℚ) (channel : ℚ) : ℚ := (c.most - channel) / (c.most - c.least)

/-- The hue in sixths of the circle, from the middle of the sectors where red is the greatest
channel. -/
def sixths (c : Rgb ℚ) : ℚ :=
  if c.red = c.most then c.depth c.blue - c.depth c.green
  else if c.green = c.most then 2 + c.depth c.red - c.depth c.blue
  else 4 + c.depth c.green - c.depth c.red

lemma toHsv_eq (c : Rgb ℚ) :
    c.toHsv =
      if c.least = c.most then .ok ⟨0, 0, c.most⟩
      else if c.most = 0 then .error .noBrightestChannel
      else .ok ⟨Int.fract (c.sixths / 6), (c.most - c.least) / c.most, c.most⟩ := by
  have hmost : greater (greater c.red c.green) c.blue = c.most := by
    rw [greater_rat, greater_rat, most]
  have hleast : lesser (lesser c.red c.green) c.blue = c.least := by
    rw [lesser_rat, lesser_rat, least]
  have hzero : (0.0 : ℚ) = 0 := by norm_num
  have htwo : (2.0 : ℚ) = 2 := by norm_num
  have hfour : (4.0 : ℚ) = 4 := by norm_num
  have hsix : (6.0 : ℚ) = 6 := by norm_num
  simp only [toHsv, hmost, hleast, isZero, beq_iff_eq, modulo_one_rat, hzero, htwo, hfour, hsix]
  rfl

variable {c : Rgb ℚ}

lemma red_le_most : c.red ≤ c.most := le_max_of_le_left (le_max_left _ _)

lemma green_le_most : c.green ≤ c.most := le_max_of_le_left (le_max_right _ _)

lemma blue_le_most : c.blue ≤ c.most := le_max_right _ _

lemma least_le_red : c.least ≤ c.red := min_le_of_left_le (min_le_left _ _)

lemma least_le_green : c.least ≤ c.green := min_le_of_left_le (min_le_right _ _)

lemma least_le_blue : c.least ≤ c.blue := min_le_right _ _

lemma most_cases (c : Rgb ℚ) : c.red = c.most ∨ c.green = c.most ∨ c.blue = c.most := by
  grind [most]

lemma least_cases (c : Rgb ℚ) : c.red = c.least ∨ c.green = c.least ∨ c.blue = c.least := by
  grind [least]

lemma depth_least (hrange : c.least < c.most) : c.depth c.least = 1 :=
  div_self (sub_pos.mpr hrange).ne'

lemma depth_nonneg (hrange : c.least < c.most) {channel : ℚ} (h : channel ≤ c.most) :
    0 ≤ c.depth channel :=
  div_nonneg (sub_nonneg.mpr h) (sub_pos.mpr hrange).le

lemma depth_le_one (hrange : c.least < c.most) {channel : ℚ} (h : c.least ≤ channel) :
    c.depth channel ≤ 1 :=
  (div_le_one₀ (sub_pos.mpr hrange)).mpr (by linarith)

/-- The colour of channels that differ. -/
def tinted (c : Rgb ℚ) : Hsv ℚ := ⟨Int.fract (c.sixths / 6), (c.most - c.least) / c.most, c.most⟩

/-- Below the greatest channel by the share of a channel, there is this channel. -/
lemma shade_depth (hmost : 0 < c.most) (hrange : c.least < c.most) (channel : ℚ) :
    c.tinted.shade (c.depth channel) = channel := by
  have hpos : c.most - c.least ≠ 0 := (sub_pos.mpr hrange).ne'
  rw [Hsv.shade, tinted, depth]
  field_simp
  ring

lemma fract_sixths {x : ℚ} (hlo : 0 ≤ x) (hhi : x < 6) : Int.fract (x / 6) * 6 = x := by
  rw [Int.fract_eq_self.mpr ⟨by positivity, by linarith⟩]
  ring

lemma fract_sixths_of_neg {x : ℚ} (hlo : -6 ≤ x) (hhi : x < 0) :
    Int.fract (x / 6) * 6 = x + 6 := by
  have hfract : Int.fract (x / 6) = x / 6 + 1 := by
    rw [← Int.fract_add_one, Int.fract_eq_self]
    exact ⟨by linarith, by linarith⟩
  rw [hfract]
  ring

/-- The hue of channels lies in a sector, at a place where the channels are drawn again. -/
def LiesIn (c : Rgb ℚ) (sector : ℕ) : Prop :=
  ∃ place : ℚ, 0 ≤ place ∧ place ≤ 1 ∧ c.tinted.hue * 6 = sector + place ∧
    c.tinted.inSector place sector = c

section

variable (hmost : 0 < c.most) (hrange : c.least < c.most)
include hmost hrange

/-- A least channel is the greatest one without the whole saturation. -/
lemma shade_one {channel : ℚ} (h : channel = c.least) : c.tinted.shade 1 = channel := by
  rw [← depth_least hrange, ← h, shade_depth hmost hrange]

lemma liesIn_of_red_blue (hr : c.red = c.most) (hb : c.blue = c.least) : c.LiesIn 0 := by
  have hlo := depth_nonneg hrange green_le_most
  have hhi := depth_le_one hrange least_le_green
  have hsixths : c.sixths = 1 - c.depth c.green := by
    rw [sixths, if_pos hr, hb, depth_least hrange]
  refine ⟨1 - c.depth c.green, by linarith, by linarith, ?_, ?_⟩
  · rw [tinted, hsixths, fract_sixths (by linarith) (by linarith)]
    norm_num
  · rw [Hsv.inSector, sub_sub_cancel, shade_depth hmost hrange, shade_one hmost hrange hb, tinted,
      ← hr]

lemma liesIn_of_green_blue (hr : c.red ≠ c.most) (hg : c.green = c.most) (hb : c.blue = c.least) :
    c.LiesIn 1 := by
  have hlo := depth_nonneg hrange red_le_most
  have hhi := depth_le_one hrange least_le_red
  have hsixths : c.sixths = 1 + c.depth c.red := by
    rw [sixths, if_neg hr, if_pos hg, hb, depth_least hrange]
    ring
  refine ⟨c.depth c.red, hlo, hhi, ?_, ?_⟩
  · rw [tinted, hsixths, fract_sixths (by linarith) (by linarith), Nat.cast_one]
  · rw [Hsv.inSector, shade_depth hmost hrange, shade_one hmost hrange hb, tinted, ← hg]

lemma liesIn_of_green_red (hr : c.red = c.least) (hg : c.green = c.most) : c.LiesIn 2 := by
  have hlo := depth_nonneg hrange blue_le_most
  have hhi := depth_le_one hrange least_le_blue
  have hsixths : c.sixths = 2 + (1 - c.depth c.blue) := by
    rw [sixths, if_neg (hr ▸ hrange.ne), if_pos hg, hr, depth_least hrange]
    ring
  refine ⟨1 - c.depth c.blue, by linarith, by linarith, ?_, ?_⟩
  · rw [tinted, hsixths, fract_sixths (by linarith) (by linarith), Nat.cast_ofNat]
  · rw [Hsv.inSector, sub_sub_cancel, shade_depth hmost hrange, shade_one hmost hrange hr, tinted,
      ← hg]

lemma liesIn_of_blue_red (hr : c.red = c.least) (hg : c.green ≠ c.most) (hb : c.blue = c.most) :
    c.LiesIn 3 := by
  have hlo := depth_nonneg hrange green_le_most
  have hhi := depth_le_one hrange least_le_green
  have hsixths : c.sixths = 3 + c.depth c.green := by
    rw [sixths, if_neg (hr ▸ hrange.ne), if_neg hg, hr, depth_least hrange]
    ring
  refine ⟨c.depth c.green, hlo, hhi, ?_, ?_⟩
  · rw [tinted, hsixths, fract_sixths (by linarith) (by linarith), Nat.cast_ofNat]
  · rw [Hsv.inSector, shade_depth hmost hrange, shade_one hmost hrange hr, tinted, ← hb]

lemma liesIn_of_blue_green (hr : c.red ≠ c.most) (hg : c.green = c.least) (hb : c.blue = c.most) :
    c.LiesIn 4 := by
  have hlo := depth_nonneg hrange red_le_most
  have hhi := depth_le_one hrange least_le_red
  have hsixths : c.sixths = 4 + (1 - c.depth c.red) := by
    rw [sixths, if_neg hr, if_neg (hg ▸ hrange.ne), hg, depth_least hrange]
    ring
  refine ⟨1 - c.depth c.red, by linarith, by linarith, ?_, ?_⟩
  · rw [tinted, hsixths, fract_sixths (by linarith) (by linarith), Nat.cast_ofNat]
  · rw [Hsv.inSector, sub_sub_cancel, shade_depth hmost hrange, shade_one hmost hrange hg, tinted,
      ← hb]

/-- Between blue and red the hue is below zero before it is taken once around the circle. -/
lemma liesIn_of_red_green (hr : c.red = c.most) (hg : c.green = c.least) (hb : c.blue ≠ c.least) :
    c.LiesIn 5 := by
  have hlo := depth_nonneg hrange blue_le_most
  have hlt : c.depth c.blue < 1 := by
    rw [depth, div_lt_one (sub_pos.mpr hrange)]
    linarith [lt_of_le_of_ne least_le_blue hb.symm]
  have hsixths : c.sixths = c.depth c.blue - 1 := by
    rw [sixths, if_pos hr, hg, depth_least hrange]
  refine ⟨c.depth c.blue, hlo, hlt.le, ?_, ?_⟩
  · rw [tinted, hsixths, fract_sixths_of_neg (by linarith) (by linarith)]
    push_cast
    ring
  · have hsector (place : ℚ) : c.tinted.inSector place 5 =
        ⟨c.tinted.value, c.tinted.shade 1, c.tinted.shade place⟩ := rfl
    rw [hsector, shade_depth hmost hrange, shade_one hmost hrange hg, tinted, ← hr]

/-- The hue of channels lies in the sector of their greatest and their least. -/
lemma exists_liesIn : ∃ sector < 6, c.LiesIn sector := by
  by_cases hr : c.red = c.most
  · by_cases hb : c.blue = c.least
    · exact ⟨0, by norm_num, liesIn_of_red_blue hmost hrange hr hb⟩
    · have hg := ((least_cases c).resolve_left (hr ▸ hrange.ne')).resolve_right hb
      exact ⟨5, by norm_num, liesIn_of_red_green hmost hrange hr hg hb⟩
  by_cases hg : c.green = c.most
  · by_cases hb : c.blue = c.least
    · exact ⟨1, by norm_num, liesIn_of_green_blue hmost hrange hr hg hb⟩
    · have hl := (least_cases c).resolve_right (not_or_intro (hg ▸ hrange.ne') hb)
      exact ⟨2, by norm_num, liesIn_of_green_red hmost hrange hl hg⟩
  · have hb := ((most_cases c).resolve_left hr).resolve_left hg
    by_cases hl : c.red = c.least
    · exact ⟨3, by norm_num, liesIn_of_blue_red hmost hrange hl hg hb⟩
    · have hg' := ((least_cases c).resolve_left hl).resolve_right (hb ▸ hrange.ne')
      exact ⟨4, by norm_num, liesIn_of_blue_green hmost hrange hr hg' hb⟩

end

lemma isShare_most (h : c.IsProper) : IsShare c.most := by
  rcases most_cases c with hc | hc | hc
  · exact hc ▸ h.red
  · exact hc ▸ h.green
  · exact hc ▸ h.blue

lemma isShare_least (h : c.IsProper) : IsShare c.least := by
  rcases least_cases c with hc | hc | hc
  · exact hc ▸ h.red
  · exact hc ▸ h.green
  · exact hc ▸ h.blue

/-- Channels that do not differ are a grey. -/
lemma eq_of_least_eq_most (h : c.least = c.most) : c = ⟨c.most, c.most, c.most⟩ := by
  have hred := red_le_most.antisymm (h ▸ least_le_red)
  have hgreen := green_le_most.antisymm (h ▸ least_le_green)
  have hblue := blue_le_most.antisymm (h ▸ least_le_blue)
  have hc : c = ⟨c.red, c.green, c.blue⟩ := rfl
  rwa [hred, hgreen, hblue] at hc

lemma tinted_isProper (h : c.IsProper) (hmost : 0 < c.most) : c.tinted.IsProper := by
  obtain ⟨hleast, -⟩ := isShare_rat.mp (isShare_least h)
  have hle : c.least ≤ c.most := least_le_red.trans red_le_most
  refine ⟨isShare_rat.mpr ⟨Int.fract_nonneg _, (Int.fract_lt_one _).le⟩, ?_, isShare_most h⟩
  exact isShare_rat.mpr
    ⟨div_nonneg (sub_nonneg.mpr hle) hmost.le, (div_le_one₀ hmost).mpr (by linarith)⟩

/-- Channels have a hue, a saturation and a value, and these have the channels. -/
lemma exists_toHsv (h : c.IsProper) :
    ∃ hsv : Hsv ℚ, c.toHsv = .ok hsv ∧ hsv.IsProper ∧ hsv.toRgb = .ok c := by
  rw [toHsv_eq]
  by_cases hgrey : c.least = c.most
  · have hzero : IsShare (0 : ℚ) := isShare_rat.mpr ⟨le_rfl, zero_le_one⟩
    refine ⟨⟨0, 0, c.most⟩, if_pos hgrey, ⟨hzero, hzero, isShare_most h⟩, ?_⟩
    have hdrawn : (⟨0, 0, c.most⟩ : Hsv ℚ).toRgb = .ok (Hsv.inSector ⟨0, 0, c.most⟩ 0 0) :=
      Hsv.toRgb_eq_inSector (by norm_num) le_rfl zero_le_one (by norm_num)
    have hchannels : Hsv.inSector ⟨0, 0, c.most⟩ 0 0 = c := by
      simp only [Hsv.inSector, Hsv.shade, sub_zero, mul_one]
      exact (eq_of_least_eq_most hgrey).symm
    rw [hdrawn, hchannels]
  · have hrange : c.least < c.most := lt_of_le_of_ne (least_le_red.trans red_le_most) hgrey
    have hmost : 0 < c.most := (isShare_rat.mp (isShare_least h)).1.trans_lt hrange
    obtain ⟨sector, hsector, place, hlo, hhi, hhue, heq⟩ := exists_liesIn hmost hrange
    refine ⟨c.tinted, ?_, tinted_isProper h hmost, ?_⟩
    · rw [if_neg hgrey, if_neg hmost.ne', tinted]
    · rw [Hsv.toRgb_eq_inSector hsector hlo hhi hhue, heq]

end Rgb

end Seamark
