import Mathlib
import Seamark.Color.Bar
import Seamark.Proofs.Color.Hex
import Seamark.Proofs.Table

/-!
# Bars of exact numbers

The channels of a colour grow in proportion to its value, so dimming a colour scales its channels
(`Hsv.dim_eq`).  A token that stands for a colour in hexadecimal digits, for anything that is not
written with a number sign, or for nothing at all, is drawn in a proper colour (`exists_drawn`), so
its bar is always shown, and its channel numbers follow the brightness (`bar_follows_brightness`).
-/

namespace Seamark

/-- The channels of a colour in proportion. -/
def Rgb.scale (c : Rgb ℚ) (factor : ℚ) : Rgb ℚ :=
  ⟨factor * c.red, factor * c.green, factor * c.blue⟩

namespace Hsv

/-- The colour that a factor dims a colour to has the value kept from 0 to 1. -/
lemma dim_eq (c : Hsv ℚ) (factor : ℚ) :
    c.dim factor = ⟨c.hue, c.saturation, max 0 (min 1 (c.value * factor))⟩ := by
  have hzero : (0.0 : ℚ) = 0 := by norm_num
  have hone : (1.0 : ℚ) = 1 := by norm_num
  rw [dim, greater_rat, lesser_rat, hzero, hone]

lemma isShare_clamp (x : ℚ) : IsShare (max 0 (min 1 x)) :=
  isShare_rat.mpr ⟨le_max_left _ _, max_le zero_le_one (min_le_left _ _)⟩

lemma clamp_eq_of_isShare {x : ℚ} (hx : IsShare x) : max 0 (min 1 x) = x := by
  obtain ⟨hlo, hhi⟩ := isShare_rat.mp hx
  rw [min_eq_right hhi, max_eq_right hlo]

end Hsv

lemma IsShare.mul {x y : ℚ} (hx : IsShare x) (hy : IsShare y) : IsShare (x * y) := by
  obtain ⟨hx0, hx1⟩ := isShare_rat.mp hx
  obtain ⟨hy0, hy1⟩ := isShare_rat.mp hy
  exact isShare_rat.mpr ⟨mul_nonneg hx0 hy0, mul_le_one₀ hx1 hy0 hy1⟩

lemma Rgb.IsProper.scale {c : Rgb ℚ} (hc : c.IsProper) {factor : ℚ} (hfactor : IsShare factor) :
    (c.scale factor).IsProper :=
  ⟨hfactor.mul hc.red, hfactor.mul hc.green, hfactor.mul hc.blue⟩

/-- A colour has for each channel a share of its value, whatever it is dimmed by. -/
lemma Hsv.exists_toRgb_dim {c : Hsv ℚ} (hc : c.IsProper) :
    ∃ w : Rgb ℚ, w.IsProper ∧ c.toRgb = .ok (w.scale c.value) ∧
      ∀ factor, (c.dim factor).toRgb = .ok (w.scale (max 0 (min 1 (c.value * factor)))) := by
  obtain ⟨w, hw, heq⟩ := exists_toRgb_eq hc.hue hc.saturation
  refine ⟨w, hw, heq c.value, fun factor => ?_⟩
  rw [dim_eq]
  exact heq _

namespace Color

/-! ### The colour of a token -/

section

variable {α : Type} [Scalar α]

lemma ofValue_white : ofValue "white" = .ok (⟨0.0, 0.0, 1.0⟩ : Hsv α) := by
  have hname : plainName "white" = "white" := by decide +kernel
  rw [ofValue, hname]
  rfl

/-- A token is drawn in a colour that has a property if all named colours have it, and also every
colour that the value of the token denotes in hexadecimal digits.  A value that denotes none is
drawn in white. -/
lemma exists_drawn {P : Hsv α → Prop}
    (hnamed : ∀ entry ∈ (named : Table (Hsv α)).entries, P entry.2)
    (table : Table String) (token : String)
    (hhex : ∀ v, table.get? token = some v → v.toList.head? = some '#' →
      (ofHex v : Except ColorError (Hsv α)) = .error (.invalidHex v) ∨
        ∃ c : Hsv α, ofHex v = .ok c ∧ P c) :
    ∃ c : Hsv α, drawn table token = .ok c ∧ P c := by
  have hwhite : P ⟨0.0, 0.0, 1.0⟩ := hnamed ("white", _) (List.mem_cons_self ..)
  cases hv : table.get? token with
  | none =>
    refine ⟨_, ?_, hwhite⟩
    rw [drawn, resolve, hv, Option.getD_none, ofValue_white]
  | some v =>
    rw [drawn, resolve, hv, Option.getD_some, ofValue_white, ofValue]
    by_cases hsign : v.toList.head? = some '#'
    · rw [if_pos hsign]
      rcases hhex v hv hsign with hinvalid | ⟨c, hc, hP⟩
      · exact ⟨_, by rw [hinvalid], hwhite⟩
      · exact ⟨c, by rw [hc], hP⟩
    · rw [if_neg hsign]
      cases hname : (named : Table (Hsv α)).get? (plainName v) with
      | none => exact ⟨_, rfl, hwhite⟩
      | some c => exact ⟨c, rfl, hnamed _ (Table.mem_entries_of_get? hname)⟩

end

lemma named_isProper : ∀ entry ∈ (named : Table (Hsv ℚ)).entries, entry.2.IsProper := by
  intro entry hentry
  simp only [named, List.mem_cons, List.not_mem_nil, or_false] at hentry
  rcases hentry with rfl | rfl | rfl | rfl | rfl | rfl | rfl <;> constructor <;>
    rw [isShare_rat] <;> norm_num

/-! ### Bars -/

/-- The bar whose ground has some channel numbers. -/
def barText (n : ℤ × ℤ × ℤ) : String :=
  "\x1b[48;2;" ++ toString n.1 ++ ";" ++ toString n.2.1 ++ ";" ++ toString n.2.2 ++ "m"
    ++ "".pushn ' ' barWidth ++ "\x1b[0m"

/-- A bar is shown exactly if it has channel numbers. -/
lemma bar_eq {α : Type} [Scalar α] (table : Table String) (s : Segment α) :
    bar table s = (barChannels table s).map barText := by
  rw [bar]
  cases barChannels table s <;> rfl

/-- A number of each channel that can be shown. -/
def InRange (n : ℤ × ℤ × ℤ) : Prop :=
  (0 ≤ n.1 ∧ n.1 ≤ 255) ∧ (0 ≤ n.2.1 ∧ n.2.1 ≤ 255) ∧ (0 ≤ n.2.2 ∧ n.2.2 ≤ 255)

/-- The integer parts of channels out of 255. -/
def parts (c : Rgb ℚ) : ℤ × ℤ × ℤ := (⌊255 * c.red⌋, ⌊255 * c.green⌋, ⌊255 * c.blue⌋)

lemma channelPart_eq {x : ℚ} (hx : IsShare x) : channelPart x = .ok ⌊255 * x⌋ := by
  obtain ⟨hlo, -⟩ := isShare_rat.mp hx
  have hscale : x * (255.0 : ℚ) = 255 * x := by
    norm_num
    ring
  rw [channelPart, hscale, truncate_rat (by positivity)]

lemma floor_bounds {x : ℚ} (hx : IsShare x) : 0 ≤ ⌊255 * x⌋ ∧ ⌊255 * x⌋ ≤ 255 := by
  obtain ⟨hlo, hhi⟩ := isShare_rat.mp hx
  refine ⟨Int.floor_nonneg.mpr (by positivity), Int.floor_le_iff.mpr ?_⟩
  push_cast
  linarith

lemma parts_inRange {c : Rgb ℚ} (hc : c.IsProper) : InRange (parts c) :=
  ⟨floor_bounds hc.red, floor_bounds hc.green, floor_bounds hc.blue⟩

lemma parts_scale_mono {w : Rgb ℚ} (hw : w.IsProper) {x y : ℚ} (h : x ≤ y) :
    parts (w.scale x) ≤ parts (w.scale y) := by
  have hchannel {channel : ℚ} (hc : IsShare channel) : 255 * (x * channel) ≤ 255 * (y * channel) :=
    mul_le_mul_of_nonneg_left (mul_le_mul_of_nonneg_right h (isShare_rat.mp hc).1) (by norm_num)
  exact ⟨Int.floor_le_floor (hchannel hw.red), Int.floor_le_floor (hchannel hw.green),
    Int.floor_le_floor (hchannel hw.blue)⟩

lemma bar_of_dark {α : Type} [Scalar α] (table : Table String) {s : Segment α}
    (hdark : s.lit = false) : bar table s = .ok (barText (0, 0, 0)) := by
  rw [bar_eq, barChannels, hdark]
  rfl

/-- The bar of a lit segment has the integer parts of the channels of its dimmed colour. -/
lemma bar_of_lit {table : Table String} {s : Segment ℚ} {color : Hsv ℚ} {rgb : Rgb ℚ}
    (hlit : s.lit = true) (hdrawn : drawn table s.color = .ok color)
    (hrgb : (color.dim s.intensity).toRgb = .ok rgb) (hproper : rgb.IsProper) :
    bar table s = .ok (barText (parts rgb)) := by
  have hlevel : s.level = s.intensity := by rw [Segment.level, if_pos hlit]
  have hchannels : barChannels table s = .ok (parts rgb) := by
    rw [barChannels, if_pos hlit, hdrawn, hlevel]
    simp only [bind, Except.bind, hrgb, channelPart_eq hproper.red, channelPart_eq hproper.green,
      channelPart_eq hproper.blue]
    rfl
  rw [bar_eq, hchannels]
  rfl

/-- **Bars follow the brightness.**  Dimming a colour scales its channels, and never takes them out
of their range.  A token whose value is not a wrong text with a number sign has a bar at every
brightness, with channel numbers in their range that do not get smaller when the light gets
brighter; from dark to full brightness they are the integer parts of the exact channels in
proportion.  The bar of a dark segment is black. -/
theorem bar_follows_brightness :
    (∀ c : Hsv ℚ, c.IsProper → ∃ rgb, c.toRgb = .ok rgb ∧ rgb.IsProper ∧
      (∀ factor, 0 ≤ factor → factor ≤ 1 → (c.dim factor).toRgb = .ok (rgb.scale factor)) ∧
      ∀ factor, factor < 0 ∨ 1 < factor →
        ∃ rgb', (c.dim factor).toRgb = .ok rgb' ∧ rgb'.IsProper) ∧
    (∀ (table : Table String) (token : String),
      (∀ v, table.get? token = some v → v.toList.head? = some '#' → IsHexText v) →
      ∃ (color : Hsv ℚ) (rgb : Rgb ℚ) (numbers : ℚ → ℤ × ℤ × ℤ),
        drawn table token = .ok color ∧ color.toRgb = .ok rgb ∧
        (∀ s : Segment ℚ, s.color = token → s.lit = true →
          bar table s = .ok (barText (numbers s.intensity))) ∧
        (∀ x, InRange (numbers x)) ∧ Monotone numbers ∧
        ∀ x, 0 ≤ x → x ≤ 1 → numbers x =
          (⌊x * (255 * rgb.red)⌋, ⌊x * (255 * rgb.green)⌋, ⌊x * (255 * rgb.blue)⌋)) ∧
    ∀ (table : Table String) (s : Segment ℚ), s.lit = false →
      bar table s = .ok (barText (0, 0, 0)) := by
  -- from dark to full brightness the value is not cut off
  have hscale {c : Hsv ℚ} (hc : c.IsProper) (w : Rgb ℚ) {x : ℚ} (hlo : 0 ≤ x) (hhi : x ≤ 1) :
      w.scale (max 0 (min 1 (c.value * x))) = (w.scale c.value).scale x := by
    rw [Hsv.clamp_eq_of_isShare (hc.value.mul (isShare_rat.mpr ⟨hlo, hhi⟩)), Rgb.scale, Rgb.scale,
      Rgb.scale]
    congr 1 <;> ring
  refine ⟨fun c hc => ?_, fun table token htoken => ?_,
    fun table s hdark => bar_of_dark table hdark⟩
  · obtain ⟨w, hw, hfull, hdim⟩ := Hsv.exists_toRgb_dim hc
    refine ⟨w.scale c.value, hfull, hw.scale hc.value, fun factor hlo hhi => ?_,
      fun factor _ => ⟨_, hdim factor, hw.scale (Hsv.isShare_clamp _)⟩⟩
    rw [hdim, hscale hc w hlo hhi]
  · obtain ⟨color, hdrawn, hc⟩ := exists_drawn (P := Hsv.IsProper) (α := ℚ) named_isProper
      table token fun v hv hsign => by
        obtain ⟨c, hread, hproper, -⟩ := (htoken v hv hsign).exists_ofHex
        exact Or.inr ⟨c, hread, hproper⟩
    obtain ⟨w, hw, hfull, hdim⟩ := Hsv.exists_toRgb_dim hc
    have hproper (x : ℚ) := hw.scale (Hsv.isShare_clamp (color.value * x))
    refine ⟨color, w.scale color.value, fun x => parts (w.scale (max 0 (min 1 (color.value * x)))),
      hdrawn, hfull, fun s hs hlit => ?_, fun x => parts_inRange (hproper x), fun x y h => ?_,
      fun x hlo hhi => ?_⟩
    · exact bar_of_lit hlit (hs ▸ hdrawn) (hdim s.intensity) (hproper s.intensity)
    · have hvalue := mul_le_mul_of_nonneg_left h (isShare_rat.mp hc.value).1
      exact parts_scale_mono hw (max_le_max_left 0 (min_le_min_left 1 hvalue))
    · dsimp only
      rw [hscale hc w hlo hhi, parts]
      simp only [Rgb.scale, mul_left_comm]

/-- Amber at half its brightness. -/
theorem amber_bar_follows_brightness :
    (Hsv.IsProper (⟨191 / 1530, 1, 1⟩ : Hsv ℚ) ∧
      ((⟨191 / 1530, 1, 1⟩ : Hsv ℚ).dim (1 / 2)).toRgb = .ok ⟨1 / 2, 191 / 510, 0⟩) ∧
    IsHexText "#FFBF00" ∧
      bar builtin ⟨true, 1, "Am", (1 / 2 : ℚ)⟩ = .ok (barText (127, 95, 0)) := by
  have hproper : Hsv.IsProper (⟨191 / 1530, 1, 1⟩ : Hsv ℚ) := by
    constructor <;> rw [isShare_rat] <;> norm_num
  have hchannels : (⟨191 / 1530, 1, 1⟩ : Hsv ℚ).toRgb = .ok ⟨1, 191 / 255, 0⟩ := by decide +kernel
  have hhex : IsHexText "#FFBF00" := by decide
  have hvalue : builtin.get? "Am" = some "#FFBF00" := rfl
  refine ⟨⟨hproper, ?_⟩, hhex, ?_⟩
  · obtain ⟨rgb, hrgb, -, hdim, -⟩ := bar_follows_brightness.1 _ hproper
    obtain rfl := Except.ok.inj (hchannels.symm.trans hrgb)
    rw [hdim (1 / 2) (by norm_num) (by norm_num), Rgb.scale]
    norm_num
  · obtain ⟨color, rgb, numbers, hdrawn, hrgb, hbar, -, -, hnumbers⟩ :=
      bar_follows_brightness.2.1 builtin "Am" fun v hv _ => by
        obtain rfl := Option.some.inj (hvalue.symm.trans hv)
        exact hhex
    have hamber : drawn builtin "Am" = .ok (⟨191 / 1530, 1, 1⟩ : Hsv ℚ) := by decide +kernel
    obtain rfl := Except.ok.inj (hamber.symm.trans hdrawn)
    obtain rfl := Except.ok.inj (hchannels.symm.trans hrgb)
    rw [hbar ⟨true, 1, "Am", 1 / 2⟩ rfl rfl, hnumbers (1 / 2) (by norm_num) (by norm_num)]
    norm_num

end Color

end Seamark
