import Mathlib
import Seamark.Proofs.Color.Bar
import Seamark.Proofs.Double.Parts

/-!
# Colours of doubles

Doubles from 0 to 1 stay there under the operations that turn a colour into channels, since rounding
passes neither bound, and the channels of a text in hexadecimal digits differ by enough to be told
apart and divided by.  So a text of hexadecimal digits gives a proper colour, and its bar has
channel numbers from 0 to 255 at every brightness, even an infinite or an undefined one.  A text
with a minus may give an improper colour, or none because its greatest channel is zero
(`ofHex_outcomes`).
-/

namespace Seamark

open Double

/-! ### Doubles from 0 to 1 -/

lemma isShare_float {x : Float} : IsShare x ↔ IsNumber x ∧ 0 ≤ value x ∧ value x ≤ 1 := by
  obtain ⟨hzero, hzero'⟩ := value_zero
  obtain ⟨hone, hone'⟩ := value_one
  constructor
  · rintro ⟨hlo, hhi⟩
    have hx : IsNumber x := isNumber_of_le hzero hone hlo hhi
    exact ⟨hx, hzero' ▸ (le_iff_value hzero hx).mp hlo, hone' ▸ (le_iff_value hx hone).mp hhi⟩
  · rintro ⟨hx, hlo, hhi⟩
    exact ⟨(le_iff_value hzero hx).mpr (hzero' ▸ hlo), (le_iff_value hx hone).mpr (hone' ▸ hhi)⟩

/-- A double between two representable numbers from 0 to 1 is a share. -/
lemma isShare_of_rounds {x : Float} {q : ℚ} (h : Rounds x q) (hlo : 0 ≤ q) (hhi : q ≤ 1) :
    IsShare x :=
  isShare_float.mpr
    ⟨h.isNumber, h.le_value representable_zero hlo, h.value_le representable_one hhi⟩

lemma abs_lt_of_share {q : ℚ} (hlo : 0 ≤ q) (hhi : q ≤ 1) : |q| < 2 ^ 53 := by
  rw [abs_of_nonneg hlo]
  linarith

lemma IsShare.float_mul {x y : Float} (hx : IsShare x) (hy : IsShare y) : IsShare (x * y) := by
  obtain ⟨hx, hx0, hx1⟩ := isShare_float.mp hx
  obtain ⟨hy, hy0, hy1⟩ := isShare_float.mp hy
  have hlo := mul_nonneg hx0 hy0
  have hhi := mul_le_one₀ hx1 hy0 hy1
  exact isShare_of_rounds (rounds_mul hx hy (abs_lt_of_share hlo hhi)) hlo hhi

lemma IsShare.float_rest {x : Float} (hx : IsShare x) : IsShare (1.0 - x) := by
  obtain ⟨hx, hx0, hx1⟩ := isShare_float.mp hx
  obtain ⟨hone, hone'⟩ := value_one
  have hlo : 0 ≤ value 1.0 - value x := by linarith
  have hhi : value 1.0 - value x ≤ 1 := by linarith
  exact isShare_of_rounds (rounds_sub hone hx (abs_lt_of_share hlo hhi)) hlo hhi

lemma isShare_zero_float : IsShare (0.0 : Float) :=
  isShare_float.mpr ⟨value_zero.1, value_zero.2.ge, by rw [value_zero.2]; exact zero_le_one⟩

lemma isShare_one_float : IsShare (1.0 : Float) :=
  isShare_float.mpr ⟨value_one.1, by rw [value_one.2]; exact zero_le_one, value_one.2.le⟩

/-- A double that is kept from 0 to 1 is a share, even if it was infinite or undefined. -/
lemma isShare_clamp_float (x : Float) : IsShare (greater 0.0 (lesser 1.0 x)) := by
  obtain ⟨hzero, hzero'⟩ := value_zero
  obtain ⟨hone, hone'⟩ := value_one
  rw [lesser]
  split_ifs with hlt
  · rw [greater]
    split_ifs with hpos
    · exact ⟨le_of_lt_double hpos, le_of_lt_double hlt⟩
    · exact isShare_zero_float
  · have hpos : (0.0 : Float) < 1.0 := by
      rw [lt_iff_value hzero hone, hzero', hone']
      exact zero_lt_one
    rw [greater, if_pos hpos]
    exact isShare_one_float

/-! ### Channels -/

/-- A share times a moderate number is a number up to it. -/
lemma rounds_mul_share {x y : Float} {n : ℤ} (hx : IsShare x) (hliteral : y = Float.ofInt n)
    (hn : 0 ≤ n) (hn' : n < 2 ^ 53) :
    IsNumber (x * y) ∧ 0 ≤ value (x * y) ∧ value (x * y) ≤ n := by
  obtain ⟨hx, hlo, hhi⟩ := isShare_float.mp hx
  obtain ⟨hy, hvalue⟩ := value_literal (by rwa [abs_of_nonneg hn]) hliteral
  have hcast : (0 : ℚ) ≤ n := by exact_mod_cast hn
  have hcast' : (n : ℚ) < 2 ^ 53 := by exact_mod_cast hn'
  have hlo' : 0 ≤ value x * value y := by rw [hvalue]; positivity
  have hhi' : value x * value y ≤ n := by
    rw [hvalue]
    exact mul_le_of_le_one_left hcast hhi
  have hrounds := rounds_mul hx hy (by rw [abs_of_nonneg hlo']; exact hhi'.trans_lt hcast')
  have hn53 : Representable n := representable_intCast (by rw [abs_of_nonneg hn]; exact hn'.le)
  exact ⟨hrounds.isNumber, hrounds.le_value representable_zero hlo', hrounds.value_le hn53 hhi'⟩

/-- A share has an integer part out of 255. -/
lemma channelPart_float {x : Float} (hx : IsShare x) :
    ∃ n, Color.channelPart x = .ok n ∧ 0 ≤ n ∧ n ≤ 255 := by
  obtain ⟨hnumber, hlo, hhi⟩ := rounds_mul_share (n := 255) (y := 255.0) hx rfl (by norm_num)
    (by norm_num)
  have htruncate : Scalar.truncate (x * 255.0) = .ok ⌊value (x * 255.0)⌋ :=
    floatTruncate_eq hnumber hlo
  refine ⟨⌊value (x * 255.0)⌋, ?_, Int.floor_nonneg.mpr hlo, ?_⟩
  · rw [Color.channelPart, htruncate]
  · exact_mod_cast (Int.floor_le _).trans hhi

lemma exists_toRgb_float {c : Hsv Float} (hc : c.IsProper) :
    ∃ rgb, c.toRgb = .ok rgb ∧ rgb.IsProper := by
  have hv := hc.value
  by_cases hgrey : isZero c.saturation = true
  · refine ⟨⟨c.value, c.value, c.value⟩, ?_, hv, hv, hv⟩
    rw [Hsv.toRgb, if_pos hgrey]
  obtain ⟨hnumber, hlo, hhi⟩ := rounds_mul_share (n := 6) (y := 6.0) hc.hue rfl (by norm_num)
    (by norm_num)
  have htruncate : Scalar.truncate (c.hue * 6.0) = .ok ⌊value (c.hue * 6.0)⌋ :=
    floatTruncate_eq hnumber hlo
  have hfloor := Int.floor_nonneg.mpr hlo
  have hfloor' : ⌊value (c.hue * 6.0)⌋ ≤ 6 := by exact_mod_cast (Int.floor_le _).trans hhi
  obtain ⟨hsector, hsector'⟩ := value_ofInt (n := ⌊value (c.hue * 6.0)⌋)
    (by rw [abs_of_nonneg hfloor]; omega)
  -- the place within the sector, and the channels between the least and the greatest one
  have hplace : IsShare (c.hue * 6.0 - Scalar.ofInt ⌊value (c.hue * 6.0)⌋) := by
    have hlo' := Int.floor_le (value (c.hue * 6.0))
    have hhi' := (Int.lt_floor_add_one (value (c.hue * 6.0))).le
    have hrounds := rounds_sub hnumber hsector
      (abs_lt_of_share (by rw [hsector']; linarith) (by rw [hsector']; linarith))
    rw [hsector'] at hrounds
    exact isShare_of_rounds hrounds (by linarith) (by linarith)
  have hp := hv.float_mul hc.saturation.float_rest
  have hq := hv.float_mul (hc.saturation.float_mul hplace).float_rest
  have ht := hv.float_mul (hc.saturation.float_mul hplace.float_rest).float_rest
  rw [Hsv.toRgb, if_neg hgrey, htruncate]
  refine ⟨_, rfl, ?_⟩
  split
  · exact ⟨hv, ht, hp⟩
  · exact ⟨hq, hv, hp⟩
  · exact ⟨hp, hv, ht⟩
  · exact ⟨hp, hq, hv⟩
  · exact ⟨ht, hp, hv⟩
  · exact ⟨hv, hp, hq⟩

lemma dim_isProper_float {c : Hsv Float} (hc : c.IsProper) (factor : Float) :
    (c.dim factor).IsProper :=
  ⟨hc.hue, hc.saturation, isShare_clamp_float _⟩

namespace Color

lemma named_isProper_float : ∀ entry ∈ (named : Table (Hsv Float)).entries, entry.2.IsProper := by
  have hgrade (x : Float) (h : x ∈ [0.0, 0.108, 0.167, 0.333, 0.5, 1.0]) : IsShare x := by
    simp only [List.mem_cons, List.not_mem_nil, or_false] at h
    rcases h with rfl | rfl | rfl | rfl | rfl | rfl <;> constructor <;> decide +kernel
  intro entry hentry
  simp only [named, List.mem_cons, List.not_mem_nil, or_false] at hentry
  rcases hentry with rfl | rfl | rfl | rfl | rfl | rfl | rfl <;> constructor <;>
    exact hgrade _ (by simp)

/-- A token that is drawn in a proper colour has a bar at every brightness. -/
lemma exists_barChannels_float {table : Table String} {s : Segment Float} {color : Hsv Float}
    (hdrawn : drawn table s.color = .ok color) (hcolor : color.IsProper) :
    ∃ n, barChannels table s = .ok n ∧ InRange n := by
  cases hlit : s.lit with
  | false => exact ⟨(0, 0, 0), by rw [barChannels, hlit]; rfl, by norm_num [InRange]⟩
  | true =>
    obtain ⟨rgb, hrgb, hproper⟩ := exists_toRgb_float (dim_isProper_float hcolor s.level)
    obtain ⟨r, hr, hrange⟩ := channelPart_float hproper.red
    obtain ⟨g, hg, hrange'⟩ := channelPart_float hproper.green
    obtain ⟨b, hb, hrange''⟩ := channelPart_float hproper.blue
    refine ⟨(r, g, b), ?_, hrange, hrange', hrange''⟩
    rw [barChannels, if_pos hlit, hdrawn]
    simp only [bind, Except.bind, hrgb, hr, hg, hb]
    rfl

/-! ### Hue, saturation and value of channel numbers -/

/-- The channel of a channel number. -/
def channelOf (n : ℤ) : Float := Scalar.ofInt n / 255.0

section

variable {m n : ℤ}

lemma rounds_channelOf (hn : |n| ≤ 255) : Rounds (channelOf n) (n / 255) := by
  obtain ⟨hint, hint'⟩ := value_ofInt (n := n) (by omega)
  obtain ⟨h255, h255'⟩ := value_literal (x := 255.0) (n := 255) (by norm_num) rfl
  push_cast at h255'
  have hcast : |(n : ℚ)| ≤ 255 := by exact_mod_cast hn
  have hsmall : |value (Float.ofInt n) / value 255.0| < 2 ^ 53 := by
    rw [hint', h255', abs_div, abs_of_nonneg (by norm_num : (0 : ℚ) ≤ 255)]
    linarith
  have hrounds := rounds_div hint h255 (by rw [h255']; norm_num) hsmall
  rwa [hint', h255'] at hrounds

lemma atMost_channelOf (hn : |n| ≤ 255) : AtMost (channelOf n) 1 := by
  have hcast : |(n : ℚ)| ≤ 255 := by exact_mod_cast hn
  refine .of_rounds (rounds_channelOf hn) (by norm_num) ?_
  rw [abs_div, abs_of_nonneg (by norm_num : (0 : ℚ) ≤ 255), Nat.cast_one]
  linarith

lemma isShare_channelOf (hlo : 0 ≤ n) (hhi : n ≤ 255) : IsShare (channelOf n) := by
  have hlo' : (0 : ℚ) ≤ n := by exact_mod_cast hlo
  have hhi' : (n : ℚ) ≤ 255 := by exact_mod_cast hhi
  have hn : |n| ≤ 255 := by rwa [abs_of_nonneg hlo]
  exact isShare_of_rounds (rounds_channelOf hn) (by positivity) (by linarith)

lemma value_channelOf_zero : value (channelOf 0) = 0 := by
  have hrounds := rounds_channelOf (n := 0) (by norm_num)
  rw [Int.cast_zero, zero_div] at hrounds
  exact hrounds.value_eq representable_zero

/-- The channels of different numbers are apart: there are numbers in 1024ths between them. -/
lemma value_channelOf_add_le (hm : |m| ≤ 255) (hn : |n| ≤ 255) (h : m < n) :
    value (channelOf m) + 1 / 1024 ≤ value (channelOf n) := by
  rw [abs_le] at hm hn
  have hdyadic (k : ℤ) (hk : |k| ≤ 2 ^ 53) : Representable (k / 1024) :=
    ⟨k, -10, hk, by norm_num, by rw [div_eq_mul_inv]; norm_num⟩
  obtain ⟨p, hp⟩ : ∃ p, -((-1024 * m) / 255) = p := ⟨_, rfl⟩
  obtain ⟨q, hq⟩ : ∃ q, (1024 * n) / 255 = q := ⟨_, rfl⟩
  have habove : (1024 * m : ℚ) ≤ 255 * p := by
    have : 1024 * m ≤ 255 * p := by omega
    exact_mod_cast this
  have hbelow : (255 * q : ℚ) ≤ 1024 * n := by
    have : 255 * q ≤ 1024 * n := by omega
    exact_mod_cast this
  have hbetween : (p + 1 : ℚ) ≤ q := by
    have : p + 1 ≤ q := by omega
    exact_mod_cast this
  have hlo := (rounds_channelOf (abs_le.mpr hm)).value_le
    (hdyadic p (by rw [abs_le]; omega)) (by linarith)
  have hhi := (rounds_channelOf (abs_le.mpr hn)).le_value
    (hdyadic q (by rw [abs_le]; omega)) (by linarith)
  linarith

lemma value_channelOf_lt_iff (hm : |m| ≤ 255) (hn : |n| ≤ 255) :
    value (channelOf m) < value (channelOf n) ↔ m < n := by
  refine ⟨fun h => ?_, fun h => by linarith [value_channelOf_add_le hm hn h]⟩
  by_contra hle
  rcases (not_lt.mp hle).lt_or_eq with hlt | rfl
  · linarith [value_channelOf_add_le hn hm hlt]
  · exact lt_irrefl _ h

lemma channelOf_lt_iff (hm : |m| ≤ 255) (hn : |n| ≤ 255) : channelOf m < channelOf n ↔ m < n := by
  rw [lt_iff_value (atMost_channelOf hm).isNumber (atMost_channelOf hn).isNumber,
    value_channelOf_lt_iff hm hn]

lemma channelOf_beq_iff (hm : |m| ≤ 255) (hn : |n| ≤ 255) :
    (channelOf m == channelOf n) = true ↔ m = n := by
  rw [beq_iff_value (atMost_channelOf hm).isNumber (atMost_channelOf hn).isNumber]
  refine ⟨fun h => ?_, fun h => by rw [h]⟩
  have hmn := mt (value_channelOf_lt_iff hm hn).mpr h.not_lt
  have hnm := mt (value_channelOf_lt_iff hn hm).mpr h.not_gt
  omega

lemma isZero_channelOf_iff (hn : |n| ≤ 255) : isZero (channelOf n) = true ↔ n = 0 := by
  obtain ⟨hzero, hzero'⟩ := value_zero
  have h0 : |(0 : ℤ)| ≤ 255 := by norm_num
  rw [← channelOf_beq_iff hn h0, isZero, beq_iff_value (atMost_channelOf hn).isNumber hzero,
    beq_iff_value (atMost_channelOf hn).isNumber (atMost_channelOf h0).isNumber, hzero',
    value_channelOf_zero]

lemma greater_channelOf (hm : |m| ≤ 255) (hn : |n| ≤ 255) :
    greater (channelOf m) (channelOf n) = channelOf (max m n) := by
  have hlt : (channelOf m < channelOf n) ↔ m < n := channelOf_lt_iff hm hn
  rw [greater]
  split_ifs with h
  · rw [max_eq_right (hlt.mp h).le]
  · rw [max_eq_left (not_lt.mp (mt hlt.mpr h))]

lemma lesser_channelOf (hm : |m| ≤ 255) (hn : |n| ≤ 255) :
    lesser (channelOf m) (channelOf n) = channelOf (min m n) := by
  have hlt : (channelOf n < channelOf m) ↔ n < m := channelOf_lt_iff hn hm
  rw [lesser]
  split_ifs with h
  · rw [min_eq_right (hlt.mp h).le]
  · rw [min_eq_left (not_lt.mp (mt hlt.mpr h))]

end

section

variable {top bottom : ℤ} (htop : |top| ≤ 255) (hbottom : |bottom| ≤ 255) (hlt : bottom < top)
include htop hbottom hlt

/-- Channels differ by enough to be divided by. -/
lemma range_bounds : IsNumber (channelOf top - channelOf bottom) ∧
    1 / 1024 ≤ value (channelOf top - channelOf bottom) := by
  have hgap := value_channelOf_add_le hbottom htop hlt
  have hnumber := (atMost_channelOf htop).sub (atMost_channelOf hbottom) (by norm_num)
  have hdifference : |value (channelOf top) - value (channelOf bottom)| < 2 ^ 53 := by
    have h1 := (atMost_channelOf htop).bound
    have h2 := (atMost_channelOf hbottom).bound
    push_cast at h1 h2
    rw [abs_le] at h1 h2
    rw [abs_lt]
    constructor <;> linarith
  have hrounds := rounds_sub (atMost_channelOf htop).isNumber (atMost_channelOf hbottom).isNumber
    hdifference
  exact ⟨hnumber.isNumber, hrounds.le_value ⟨1, -10, by norm_num, by norm_num, by norm_num⟩
    (by linarith)⟩

lemma atMost_depth {n : ℤ} (hn : |n| ≤ 255) :
    AtMost ((channelOf top - channelOf n) / (channelOf top - channelOf bottom)) 2048 := by
  obtain ⟨hnumber, hgap⟩ := range_bounds htop hbottom hlt
  have hdepth := (atMost_channelOf htop).sub (atMost_channelOf hn) (by norm_num)
  refine hdepth.div (k := 1024) hnumber ?_ (by norm_num)
  rw [abs_of_nonneg (by linarith)]
  push_cast
  linarith

/-- Without negative channels, they do not differ by more than the greatest one. -/
lemma isShare_saturation (hlo : 0 ≤ bottom) :
    IsShare ((channelOf top - channelOf bottom) / channelOf top) := by
  obtain ⟨hnumber, hgap⟩ := range_bounds htop hbottom hlt
  obtain ⟨htop', -, hone⟩ :=
    isShare_float.mp (isShare_channelOf (hlo.trans hlt.le) (abs_le.mp htop).2)
  obtain ⟨hbottom', hzero, -⟩ :=
    isShare_float.mp (isShare_channelOf hlo (abs_le.mp hbottom).2)
  have hle := value_channelOf_add_le hbottom htop hlt
  have hrounds := rounds_sub htop' hbottom' (abs_lt_of_share (by linarith) (by linarith))
  have hrange := hrounds.value_le (representable_value (channelOf top)) (by linarith)
  have hpos : 0 < value (channelOf top) := by linarith
  have hlo' : 0 ≤ value (channelOf top - channelOf bottom) / value (channelOf top) :=
    div_nonneg (by linarith) hpos.le
  have hhi' : value (channelOf top - channelOf bottom) / value (channelOf top) ≤ 1 :=
    (div_le_one₀ hpos).mpr hrange
  exact isShare_of_rounds (rounds_div hnumber htop' hpos.ne' (abs_lt_of_share hlo' hhi')) hlo' hhi'

end

/-- The hue of channels that differ is a number, so its remainder is a place on the circle. -/
lemma isShare_modulo {x : Float} {k : ℕ} (hx : AtMost x k) (hk : k < 2 ^ 53) :
    IsShare (Scalar.modulo (x / 6.0) 1.0) := by
  obtain ⟨hsix, hsix'⟩ := value_literal (x := 6.0) (n := 6) (by norm_num) rfl
  have hquotient := hx.div (k := 1) hsix (by rw [hsix']; norm_num) (by omega)
  exact isShare_float.mpr (floatModulo_one hquotient.isNumber)

/-- Hue, saturation and value of channel numbers.  The greatest one may be zero only if another one
is negative. -/
lemma exists_toHsv_eq {r g b : ℤ} (hr : |r| ≤ 255) (hg : |g| ≤ 255) (hb : |b| ≤ 255)
    {top bottom : ℤ} (htop : max (max r g) b = top) (hbottom : min (min r g) b = bottom) :
    ∃ hue, IsShare hue ∧ (ofChannels r g b : Rgb Float).toHsv =
      if bottom = top then .ok ⟨0.0, 0.0, channelOf top⟩
      else if top = 0 then .error .noBrightestChannel
      else .ok ⟨hue, (channelOf top - channelOf bottom) / channelOf top, channelOf top⟩ := by
  have htop' : |top| ≤ 255 := by rw [abs_le] at *; omega
  have hbottom' : |bottom| ≤ 255 := by rw [abs_le] at *; omega
  have hmost : greater (greater (channelOf r) (channelOf g)) (channelOf b) = channelOf top := by
    have hmax : |max r g| ≤ 255 := by rw [abs_le] at *; omega
    rw [greater_channelOf hr hg, greater_channelOf hmax hb, htop]
  have hleast : lesser (lesser (channelOf r) (channelOf g)) (channelOf b) = channelOf bottom := by
    have hmin : |min r g| ≤ 255 := by rw [abs_le] at *; omega
    rw [lesser_channelOf hr hg, lesser_channelOf hmin hb, hbottom]
  have hchannels : (ofChannels r g b : Rgb Float) = ⟨channelOf r, channelOf g, channelOf b⟩ := rfl
  have hequal := channelOf_beq_iff hbottom' htop'
  have hzero := isZero_channelOf_iff htop'
  rw [hchannels, Rgb.toHsv]
  simp only [hmost, hleast]
  by_cases hgrey : bottom = top
  · exact ⟨0.0, isShare_zero_float, by rw [if_pos (hequal.mpr hgrey), if_pos hgrey]⟩
  have hlt : bottom < top := by omega
  have hdepth {n : ℤ} (hn : |n| ≤ 255) := atMost_depth htop' hbottom' hlt hn
  simp only [if_neg (mt hequal.mp hgrey), if_neg hgrey, hzero]
  refine ⟨_, ?_, rfl⟩
  obtain ⟨htwo, htwo'⟩ := value_literal (x := 2.0) (n := 2) (by norm_num) rfl
  obtain ⟨hfour, hfour'⟩ := value_literal (x := 4.0) (n := 4) (by norm_num) rfl
  have hmiddle : AtMost 2.0 2 := ⟨htwo, by rw [htwo']; norm_num⟩
  have hmiddle' : AtMost 4.0 4 := ⟨hfour, by rw [hfour']; norm_num⟩
  split_ifs
  · exact isShare_modulo ((hdepth hb).sub (hdepth hg) (by norm_num)) (by norm_num)
  · exact isShare_modulo ((hmiddle.add (hdepth hr) (by norm_num)).sub (hdepth hb) (by norm_num))
      (by norm_num)
  · exact isShare_modulo ((hmiddle'.add (hdepth hg) (by norm_num)).sub (hdepth hr) (by norm_num))
      (by norm_num)

/-! ### Texts in hexadecimal digits -/

section

variable {text : String}

/-- What a readable text gives is decided by its greatest and its least channel number. -/
lemma exists_ofHex_eq {r g b : ℤ} (h : channels? text = some (r, g, b)) :
    ∃ hue, IsShare hue ∧ (ofHex text : Except ColorError (Hsv Float)) =
      if min (min r g) b = max (max r g) b then .ok ⟨0.0, 0.0, channelOf (max (max r g) b)⟩
      else if max (max r g) b = 0 then .error .noBrightestChannel
      else .ok ⟨hue, (channelOf (max (max r g) b) - channelOf (min (min r g) b)) /
        channelOf (max (max r g) b), channelOf (max (max r g) b)⟩ := by
  have hbounds := channels?_bounds h
  have habs (n : ℤ) (hn : n ∈ [r, g, b]) : |n| ≤ 255 := by
    have := hbounds n hn
    rw [abs_le]
    omega
  rw [ofHex, h]
  exact exists_toHsv_eq (habs r (by simp)) (habs g (by simp)) (habs b (by simp)) rfl rfl

lemma channels?_eq_none_iff : channels? text = none ↔ ¬ IsReadable text := by
  rw [← channels?_isSome_iff, Option.isSome_iff_ne_none, not_not]

lemma ofHex_of_not_isReadable (h : ¬ IsReadable text) :
    (ofHex text : Except ColorError (Hsv Float)) = .error (.invalidHex text) := by
  rw [ofHex, channels?_eq_none_iff.mpr h]

lemma exists_channels?_eq (h : IsReadable text) : ∃ r g b, channels? text = some (r, g, b) := by
  obtain ⟨⟨r, g, b⟩, hn⟩ := Option.isSome_iff_exists.mp ((channels?_isSome_iff text).mpr h)
  exact ⟨r, g, b, hn⟩

lemma ofHex_ne_invalidHex (h : IsReadable text) :
    (ofHex text : Except ColorError (Hsv Float)) ≠ .error (.invalidHex text) := by
  obtain ⟨r, g, b, hn⟩ := exists_channels?_eq h
  obtain ⟨hue, -, heq⟩ := exists_ofHex_eq hn
  rw [heq]
  split_ifs <;> simp

/-- The greatest channel is zero, and another one is negative. -/
lemma ofHex_eq_noBrightestChannel_iff :
    (ofHex text : Except ColorError (Hsv Float)) = .error .noBrightestChannel ↔
      ∃ r g b, channels? text = some (r, g, b) ∧ max (max r g) b = 0 ∧ min (min r g) b < 0 := by
  by_cases h : IsReadable text
  · obtain ⟨r, g, b, hn⟩ := exists_channels?_eq h
    obtain ⟨hue, -, heq⟩ := exists_ofHex_eq hn
    rw [heq, hn]
    constructor
    · intro herror
      split_ifs at herror with hgrey hzero
      exact ⟨r, g, b, rfl, hzero, by omega⟩
    · rintro ⟨r', g', b', hsame, hzero, hneg⟩
      cases hsame
      rw [if_neg (by omega), if_pos hzero]
  · rw [ofHex_of_not_isReadable h, channels?_eq_none_iff.mpr h]
    simp

/-- Without a minus no channel is negative, so there is a colour. -/
lemma exists_ofHex_float (h : IsReadable text) (hminus : '-' ∉ bare text) :
    ∃ c : Hsv Float, ofHex text = .ok c ∧ c.IsProper := by
  obtain ⟨r, g, b, hn⟩ := exists_channels?_eq h
  obtain ⟨hue, hhue, heq⟩ := exists_ofHex_eq hn
  have hbounds (n : ℤ) (hmem : n ∈ [r, g, b]) : 0 ≤ n ∧ n ≤ 255 :=
    ⟨(channels?_bounds hn n hmem).2.2 hminus, (channels?_bounds hn n hmem).2.1⟩
  have hr := hbounds r (by simp)
  have hg := hbounds g (by simp)
  have hb := hbounds b (by simp)
  obtain ⟨top, htop⟩ : ∃ top, max (max r g) b = top := ⟨_, rfl⟩
  obtain ⟨bottom, hbottom⟩ : ∃ bottom, min (min r g) b = bottom := ⟨_, rfl⟩
  rw [htop, hbottom] at heq
  have hvalue : IsShare (channelOf top) := isShare_channelOf (by omega) (by omega)
  by_cases hgrey : bottom = top
  · refine ⟨⟨0.0, 0.0, channelOf top⟩, ?_, isShare_zero_float, isShare_zero_float, hvalue⟩
    rw [heq, if_pos hgrey]
  · have htop' : |top| ≤ 255 := by rw [abs_le]; omega
    have hbottom' : |bottom| ≤ 255 := by rw [abs_le]; omega
    have hsaturation := isShare_saturation htop' hbottom' (by omega) (by omega)
    refine ⟨⟨hue, (channelOf top - channelOf bottom) / channelOf top, channelOf top⟩, ?_, hhue,
      hsaturation, hvalue⟩
    rw [heq, if_neg hgrey, if_neg (by omega)]

end

/-- **What a text in hexadecimal digits gives.**  A text that is not readable is refused as no
colour.  A readable one gives a proper colour if there is no minus in it, as in a text of nothing
but hexadecimal digits.  The only other trouble is a greatest channel of zero next to a negative
one.  A token with a text that is not readable or has no minus in it has a bar at every
brightness. -/
theorem ofHex_outcomes (text : String) :
    (IsHexText text ↔ IsReadable text ∧ ∀ c ∈ bare text, IsHexDigit c) ∧
    (IsHexText text → '-' ∉ bare text) ∧
    ((ofHex text : Except ColorError (Hsv Float)) = .error (.invalidHex text) ↔
      ¬ IsReadable text) ∧
    ((ofHex text : Except ColorError (Hsv Float)) = .error .noBrightestChannel ↔
      ∃ r g b, channels? text = some (r, g, b) ∧ max (max r g) b = 0 ∧ min (min r g) b < 0) ∧
    (∀ e, (ofHex text : Except ColorError (Hsv Float)) = .error e →
      e = .invalidHex text ∨ e = .noBrightestChannel) ∧
    (IsReadable text → '-' ∉ bare text → ∃ c : Hsv Float, ofHex text = .ok c ∧ c.IsProper) ∧
    ∀ (table : Table String) (s : Segment Float), table.get? s.color = some text →
      ¬ IsReadable text ∨ '-' ∉ bare text → ∃ n, bar table s = .ok (barText n) ∧ InRange n := by
  refine ⟨isHexText_iff text, fun h hminus => absurd (h.2 _ hminus) (by decide),
    ⟨fun h hreadable => ofHex_ne_invalidHex hreadable h, ofHex_of_not_isReadable⟩,
    ofHex_eq_noBrightestChannel_iff, fun e he => ?_, exists_ofHex_float,
    fun table s hvalue htext => ?_⟩
  · by_cases h : IsReadable text
    · obtain ⟨r, g, b, hn⟩ := exists_channels?_eq h
      obtain ⟨hue, -, heq⟩ := exists_ofHex_eq hn
      rw [heq] at he
      split_ifs at he
      exact Or.inr (Except.error.inj he).symm
    · rw [ofHex_of_not_isReadable h] at he
      exact Or.inl (Except.error.inj he).symm
  · obtain ⟨color, hdrawn, hcolor⟩ := exists_drawn (P := Hsv.IsProper) (α := Float)
      named_isProper_float table s.color fun v hv _ => by
        obtain rfl := Option.some.inj (hvalue.symm.trans hv)
        by_cases h : IsReadable text
        · exact Or.inr (exists_ofHex_float h (htext.resolve_left (not_not.mpr h)))
        · exact Or.inl (ofHex_of_not_isReadable h)
    obtain ⟨n, hn, hrange⟩ := exists_barChannels_float hdrawn hcolor
    exact ⟨n, by rw [bar_eq, hn]; rfl, hrange⟩

/-- Amber, shown at a brightness that is undefined. -/
theorem ofHex_outcomes_amber :
    IsHexText "#FFBF00" ∧ (∃ c : Hsv Float, ofHex "#FFBF00" = .ok c ∧ c.IsProper) ∧
      ∃ n, bar builtin ⟨true, 1.0, "Am", 0.0 / 0.0⟩ = .ok (barText n) ∧ InRange n := by
  have hhex : IsHexText "#FFBF00" := by decide
  obtain ⟨hiff, hminus, -, -, -, hread, hbar⟩ := ofHex_outcomes "#FFBF00"
  have hreadable := (hiff.mp hhex).1
  exact ⟨hhex, hread hreadable (hminus hhex),
    hbar builtin ⟨true, 1.0, "Am", 0.0 / 0.0⟩ rfl (Or.inr (hminus hhex))⟩

/-- Texts with signs are not of hexadecimal digits; yet one is read as a colour, one as a colour
that is not proper, and one gives no colour without being refused.  Their bars are not shown, or
have negative channel numbers. -/
theorem signed_texts_pass :
    (¬ IsHexText "#+1+1+1" ∧ ∃ c : Hsv Float, ofHex "#+1+1+1" = .ok c) ∧
    (¬ IsHexText "#-1-1-1" ∧ ∃ c : Hsv Float, ofHex "#-1-1-1" = .ok c ∧ ¬ c.IsProper) ∧
    (ofHex "#00-100" : Except ColorError (Hsv Float)) = .error .noBrightestChannel ∧
    bar ⟨[("W", "#00-100")]⟩ ⟨true, 1.0, "W", (1.0 : Float)⟩ = .error .noBrightestChannel ∧
    barChannels ⟨[("W", "#FF-F-F")]⟩ ⟨true, 1.0, "W", (1.0 : Float)⟩ = .ok (255, -15, -15) := by
  refine ⟨⟨by decide, ?_⟩, ⟨by decide, ?_⟩, ?_, ?_, ?_⟩
  · have hreadable : IsReadable "#+1+1+1" := by decide
    obtain ⟨c, hc, -⟩ := exists_ofHex_float hreadable (by decide)
    exact ⟨c, hc⟩
  · have hchannels : channels? "#-1-1-1" = some (-1, -1, -1) := by decide
    obtain ⟨hue, -, heq⟩ := exists_ofHex_eq hchannels
    rw [max_self, max_self, min_self, min_self, if_pos rfl] at heq
    refine ⟨⟨0.0, 0.0, channelOf (-1)⟩, heq, fun hproper => ?_⟩
    obtain ⟨-, hnonneg, -⟩ := isShare_float.mp hproper.value
    have hneg := (value_channelOf_lt_iff (by norm_num) (by norm_num)).mpr (by norm_num : -1 < 0)
    rw [value_channelOf_zero] at hneg
    exact absurd hneg (not_lt.mpr hnonneg)
  · exact ofHex_eq_noBrightestChannel_iff.mpr ⟨0, -1, 0, by decide, by decide, by decide⟩
  · decide +kernel
  · decide +kernel

end Color

end Seamark
