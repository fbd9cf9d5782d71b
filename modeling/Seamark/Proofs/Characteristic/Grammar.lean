import Seamark.Characteristic.Reader
import Seamark.Proofs.Text.Digits
import Seamark.Proofs.Text.Pieces

/-!
# The grammar of light characteristics

A settled text is a characteristic when it can be cut into a type, an optional group in
parentheses, one colour or more and an optional period.  A `Layout` is such a cut; `Layout.Valid`
says what may stand in each part and `Layout.Denotes` what the parts stand for.  None of this
speaks of the reader.

The main result of this file is that a text has at most one valid layout.  The only place where two
layouts could differ is the type, where one type may be the start of another (`Fl` and `Fl F`).
There the longer type goes on with a space and a word, and no word of a type begins like a colour.
-/

namespace Seamark.Characteristic

open Seamark.Text

/-! ### Letters and words in any case -/

/-- A character matches a letter of the notation when case is ignored.  Besides its two cases, an i
is matched by the dotted capital and the dotless small letter, and an s by the long s. -/
def SameLetter (w c : Char) : Prop :=
  c.toLower = w.toLower ∨ (w.toLower = 'i' ∧ (c = 'ı' ∨ c = 'İ')) ∨ (w.toLower = 's' ∧ c = 'ſ')

/-- A text matches a word of the notation letter by letter. -/
def Spells (word : String) (cs : List Char) : Prop :=
  List.Forall₂ SameLetter word.toList cs

/-- A text matches words of the notation in order, with nothing or one space between two of them. -/
def SpellsAll : List String → List Char → Prop
  | [], cs => cs = []
  | [word], cs => Spells word cs
  | word :: words, cs => ∃ first rest, Spells word first ∧ SpellsAll words rest ∧
      (cs = first ++ rest ∨ cs = first ++ ' ' :: rest)

/-- The colour tokens of the notation in their canonical spelling. -/
def colorNames : List String := ["W", "R", "G", "Y", "Am"]

/-! ### Periods -/

/-- A period as it is written: digits, perhaps a point with digits after it, perhaps a unit. -/
structure WrittenPeriod where
  /-- The digits before the point. -/
  whole : List Char
  /-- The digits after the point, if there is a point. -/
  fraction : Option (List Char)
  /-- What follows the number. -/
  unit : List Char

namespace WrittenPeriod

/-- The digits after the point, none if there is no point. -/
def decimals (p : WrittenPeriod) : List Char := p.fraction.getD []

/-- The text of a written period. -/
def chars (p : WrittenPeriod) : List Char :=
  p.whole ++ (p.fraction.elim [] fun ds => '.' :: ds) ++ p.unit

/-- A well-written period has a digit before or after the point, and its unit is nothing or an s. -/
structure Valid (p : WrittenPeriod) : Prop where
  digits : ∀ c ∈ p.whole ++ p.decimals, isDigit c
  some_digit : p.whole ++ p.decimals ≠ []
  unit : p.unit = [] ∨ Spells "s" p.unit

/-- A number that is taken as far as it goes: what follows it is no further digit, and no point
unless the number has one. -/
structure Leads (p : WrittenPeriod) : Prop where
  digits : ∀ c ∈ p.whole ++ p.decimals, isDigit c
  some_digit : p.whole ++ p.decimals ≠ []
  stops : ∀ c ∈ p.unit.head?, isDigit c = false ∧ (p.fraction = none → c ≠ '.')

/-- The number that a written period denotes, place by place. -/
def value (p : WrittenPeriod) : ℚ :=
  digitsValue p.whole + digitsValue p.decimals / 10 ^ p.decimals.length

/-- The decimal that a written period is. -/
def decimal (p : WrittenPeriod) : Decimal :=
  ⟨digitsValue (p.whole ++ p.decimals), -p.decimals.length⟩

end WrittenPeriod

/-! ### Layouts -/

/-- The parts of a characteristic as they stand in the text. -/
structure Layout where
  /-- The type. -/
  token : List Char
  /-- What stands between the parentheses, if there are any. -/
  group : Option (List Char)
  /-- The colours. -/
  colors : List (List Char)
  /-- The period, if there is one. -/
  period : Option WrittenPeriod

namespace Layout

/-- The words after the type and the group. -/
def words (l : Layout) : List (List Char) :=
  l.colors ++ (l.period.map WrittenPeriod.chars).toList

/-- The text of a group in its parentheses. -/
def groupChars (l : Layout) : List Char :=
  l.group.elim [] fun g => '(' :: g ++ [')']

/-- The text of a layout: the type, the group, and every other word after a space. -/
def chars (l : Layout) : List Char :=
  l.token ++ l.groupChars ++ l.words.flatMap (' ' :: ·)

/-- What may stand in each part.  The type must match one of the types and must also be known by its
capitals, so a dotted capital is refused there. -/
structure Valid (l : Layout) : Prop where
  token : ∃ t : LightType, SpellsAll t.spelling l.token
  known : (LightType.ofToken? (String.ofList l.token)).isSome
  group : ∀ g ∈ l.group, g ≠ [] ∧ ')' ∉ g
  colors_ne : l.colors ≠ []
  colors : ∀ word ∈ l.colors, ∃ name ∈ colorNames, Spells name word
  period : ∀ p ∈ l.period, p.Valid

/-- A valid layout of a text. -/
structure IsOf (l : Layout) (cs : List Char) : Prop extends l.Valid where
  chars_eq : l.chars = cs

/-- What the parts of a layout stand for: the type of that name, the group as it is, the canonical
names of the colours in order, and the period as a number of some kind. -/
structure Denotes {α : Type} (number : Decimal → α) (l : Layout) (c : Characteristic α) : Prop where
  type : LightType.ofToken? (String.ofList l.token) = some c.type
  group : c.group = l.group.map String.ofList
  colors : List.Forall₂ (fun name word => name ∈ colorNames ∧ Spells name word) c.colors l.colors
  period : c.period = l.period.map fun p => number p.decimal

end Layout

/-! ### Characters that match a letter -/

/-- A character that can match a letter of the notation: a plain letter or one of the three
others. -/
def IsNotational (c : Char) : Prop := c.isAlpha ∨ c = 'ı' ∨ c = 'İ' ∨ c = 'ſ'

lemma SameLetter.isNotational {w c : Char} (hw : w.isAlpha) (h : SameLetter w c) :
    IsNotational c := by
  rcases h with h | ⟨-, rfl | rfl⟩ | ⟨-, rfl⟩
  · left
    rw [← Char.isAlpha_toLower_eq_isAlpha, h, Char.isAlpha_toLower_eq_isAlpha]
    exact hw
  all_goals simp [IsNotational]

lemma isAlpha_range {c : Char} (h : c.isAlpha) : 65 ≤ c.toNat ∧ c.toNat ≤ 122 := by
  simp only [Char.isAlpha, Char.isUpper, Char.isLower, Bool.or_eq_true, Bool.and_eq_true,
    decide_eq_true_eq, ge_iff_le, UInt32.le_iff_toNat_le, Char.toNat_val] at h
  have hA : 'A'.toNat = 65 := rfl
  have hZ : 'Z'.toNat = 90 := rfl
  have ha : 'a'.toNat = 97 := rfl
  have hz : 'z'.toNat = 122 := rfl
  omega

/-- The codes of the characters that match a letter. -/
lemma IsNotational.range {c : Char} (h : IsNotational c) :
    65 ≤ c.toNat ∧ (c.toNat ≤ 122 ∨ 0x130 ≤ c.toNat ∧ c.toNat ≤ 0x17f) := by
  rcases h with h | rfl | rfl | rfl
  · exact ⟨(isAlpha_range h).1, Or.inl (isAlpha_range h).2⟩
  all_goals decide

lemma IsNotational.ne_space {c : Char} (h : IsNotational c) : c ≠ ' ' := by
  rintro rfl
  exact absurd h.range.1 (by decide)

lemma IsNotational.ne_open {c : Char} (h : IsNotational c) : c ≠ '(' := by
  rintro rfl
  exact absurd h.range.1 (by decide)

lemma IsNotational.ne_point {c : Char} (h : IsNotational c) : c ≠ '.' := by
  rintro rfl
  exact absurd h.range.1 (by decide)

lemma IsNotational.not_isBlank {c : Char} (h : IsNotational c) : isBlank c = false := by
  have hr := h.range
  simp only [isBlank, blankRanges, List.any_cons, List.any_nil, Bool.or_eq_false_iff,
    Bool.and_eq_false_iff, decide_eq_false_iff_not, and_true]
  omega

/-- The digits of every script but the plain one come after the letters of the notation. -/
lemma IsNotational.not_isDigit {c : Char} (h : IsNotational c) : isDigit c = false := by
  have hz : ∀ z ∈ zeroDigits, z = 0x30 ∨ 0x660 ≤ z := by decide
  rw [isDigit, Option.isSome_eq_false_iff, Option.isNone_iff_eq_none, digitValue?,
    List.findSome?_eq_none_iff]
  intro z hmem
  have hr := h.range
  have := hz z hmem
  rw [if_neg (by omega)]

lemma isDigit.ne_space {c : Char} (h : isDigit c) : c ≠ ' ' := by
  rintro rfl
  revert h
  decide

lemma exists_of_mem_right {β γ : Type} {R : β → γ → Prop} {bs : List β} {cs : List γ}
    (h : List.Forall₂ R bs cs) {c : γ} (hc : c ∈ cs) : ∃ b ∈ bs, R b c := by
  induction h with
  | nil => simp at hc
  | @cons b d bs ds hbd _ ih =>
    rcases List.mem_cons.mp hc with rfl | hc
    · exact ⟨b, by simp, hbd⟩
    · obtain ⟨a, ha, hac⟩ := ih hc
      exact ⟨a, by simp [ha], hac⟩

lemma Spells.isNotational {word : String} {cs : List Char} (hw : ∀ w ∈ word.toList, w.isAlpha)
    (h : Spells word cs) : ∀ c ∈ cs, IsNotational c := by
  intro c hc
  obtain ⟨w, hmem, hwc⟩ := exists_of_mem_right h hc
  exact hwc.isNotational (hw w hmem)

/-! ### The words of the types and of the colours -/

/-- The words with which a type of two words ends. -/
def secondWords : List String := ["FL", "OC", "ISO", "F"]

lemma spelling_letters (t : LightType) :
    ∀ word ∈ t.spelling, word.toList ≠ [] ∧ ∀ w ∈ word.toList, w.isUpper := by
  cases t <;> simp [LightType.spelling]

/-- A type is one word or two. -/
lemma spelling_shape (t : LightType) :
    (∃ a, t.spelling = [a]) ∨ ∃ a b, t.spelling = [a, b] ∧ b ∈ secondWords := by
  cases t
  all_goals first
    | exact Or.inl ⟨_, rfl⟩
    | exact Or.inr ⟨_, _, rfl, by decide⟩

lemma isAlpha_of_mem_spelling {t : LightType} {word : String} (h : word ∈ t.spelling) :
    ∀ w ∈ word.toList, w.isAlpha := by
  intro w hw
  simp [Char.isAlpha, (spelling_letters t word h).2 w hw]

lemma isAlpha_of_mem_colorNames {name : String} (h : name ∈ colorNames) :
    ∀ w ∈ name.toList, w.isAlpha := by
  simp only [colorNames, List.mem_cons, List.not_mem_nil, or_false] at h
  rcases h with rfl | rfl | rfl | rfl | rfl <;> simp

/-- The text of a type is letters throughout, or it is letters, a space and a second word. -/
lemma token_shape {t : LightType} {token : List Char} (h : SpellsAll t.spelling token) :
    (∀ c ∈ token, IsNotational c) ∨ ∃ first second word, token = first ++ ' ' :: second ∧
      (∀ c ∈ first, IsNotational c) ∧ word ∈ secondWords ∧ (∀ w ∈ word.toList, w.isAlpha) ∧
      Spells word second := by
  rcases spelling_shape t with ⟨a, ht⟩ | ⟨a, b, ht, hb⟩
  · left
    rw [ht, SpellsAll] at h
    exact h.isNotational (isAlpha_of_mem_spelling (t := t) (by simp [ht]))
  · have ha : ∀ w ∈ a.toList, w.isAlpha := isAlpha_of_mem_spelling (t := t) (by simp [ht])
    have hb' : ∀ w ∈ b.toList, w.isAlpha := isAlpha_of_mem_spelling (t := t) (by simp [ht])
    rw [ht] at h
    obtain ⟨first, second, hfirst, hsecond, rfl | rfl⟩ := h
    · left
      intro c hc
      rcases List.mem_append.mp hc with hc | hc
      · exact hfirst.isNotational ha c hc
      · exact hsecond.isNotational hb' c hc
    · exact Or.inr ⟨first, second, b, rfl, hfirst.isNotational ha, hb, hb', hsecond⟩

lemma SameLetter.toLower_eq {w c : Char} (hi : w.toLower ≠ 'i') (hs : w.toLower ≠ 's')
    (h : SameLetter w c) : c.toLower = w.toLower := by
  rcases h with h | ⟨h, -⟩ | ⟨h, -⟩
  · exact h
  · exact absurd h hi
  · exact absurd h hs

/-- A word is no start of another word that begins with a different letter. -/
lemma Spells.head {word : String} {cs : List Char} (h : Spells word cs) {w : Char}
    {ws : List Char} (hword : word.toList = w :: ws) (rest : List Char) :
    ∃ c cs', cs ++ rest = c :: cs' ∧ SameLetter w c := by
  rw [Spells, hword] at h
  cases h with
  | @cons _ c _ cs' hc _ => exact ⟨c, cs' ++ rest, rfl, hc⟩

lemma secondWord_head {word : String} (h : word ∈ secondWords) :
    ∃ w ws, word.toList = w :: ws ∧ w ∈ ['F', 'O', 'I'] := by
  simp only [secondWords, List.mem_cons, List.not_mem_nil, or_false] at h
  rcases h with rfl | rfl | rfl | rfl
  all_goals exact ⟨_, _, rfl, by decide⟩

lemma colorName_head {name : String} (h : name ∈ colorNames) :
    ∃ w ws, name.toList = w :: ws ∧ w ∈ ['W', 'R', 'G', 'Y', 'A'] := by
  simp only [colorNames, List.mem_cons, List.not_mem_nil, or_false] at h
  rcases h with rfl | rfl | rfl | rfl | rfl
  all_goals exact ⟨_, _, rfl, by decide⟩

/-- No second word of a type begins like a colour. -/
lemma secondWord_ne_color {word name : String} (hword : word ∈ secondWords)
    (hname : name ∈ colorNames) {cs ds r s : List Char} (hcs : Spells word cs)
    (hds : Spells name ds) : cs ++ r ≠ ds ++ s := by
  intro heq
  obtain ⟨w, ws, hw, hwmem⟩ := secondWord_head hword
  obtain ⟨v, vs, hv, hvmem⟩ := colorName_head hname
  obtain ⟨c, cs', hc, hwc⟩ := hcs.head hw r
  obtain ⟨d, ds', hd, hvd⟩ := hds.head hv s
  rw [hc, hd, List.cons.injEq] at heq
  obtain ⟨rfl, -⟩ := heq
  -- a colour starts with no i and no s, so its letter is matched in its two cases only
  have hlower : c.toLower = v.toLower := by
    have hfree : ∀ v ∈ ['W', 'R', 'G', 'Y', 'A'], v.toLower ≠ 'i' ∧ v.toLower ≠ 's' := by
      simp
    exact hvd.toLower_eq (hfree v hvmem).1 (hfree v hvmem).2
  -- the first letters of the two kinds of words differ, also in the other forms of an i
  have hapart : ∀ w ∈ ['F', 'O', 'I'], ∀ v ∈ ['W', 'R', 'G', 'Y', 'A'],
      v.toLower ≠ w.toLower ∧ 'ı'.toLower ≠ v.toLower ∧ 'İ'.toLower ≠ v.toLower ∧
        w.toLower ≠ 's' := by simp
  obtain ⟨h1, h2, h3, h4⟩ := hapart w hwmem v hvmem
  rcases hwc with h | ⟨-, rfl | rfl⟩ | ⟨h, -⟩
  · exact h1 (hlower.symm.trans h)
  · exact h2 hlower
  · exact h3 hlower
  · exact h4 h

/-! ### The parts are determined by the text -/

/-- A text is cut in one way into a part without the separator, the separator and the rest. -/
lemma append_sep_inj {sep : Char} {p q r s : List Char} (hp : sep ∉ p) (hq : sep ∉ q)
    (h : p ++ sep :: r = q ++ sep :: s) : p = q ∧ r = s := by
  have hcut := congrArg (splitAt sep) h
  rw [splitAt_append hp, splitAt_append hq, List.cons.injEq] at hcut
  obtain ⟨rfl, -⟩ := hcut
  exact ⟨rfl, by simpa using h⟩

/-- A run of digits before something that does not start with a digit is the longest one. -/
lemma span_digits {ds rest : List Char} (hds : ∀ c ∈ ds, isDigit c)
    (hrest : ∀ c ∈ rest.head?, isDigit c = false) :
    (ds ++ rest).takeWhile isDigit = ds ∧ (ds ++ rest).dropWhile isDigit = rest := by
  rw [List.takeWhile_append_of_pos hds, List.dropWhile_append_of_pos hds]
  cases rest with
  | nil => simp
  | cons c rest =>
    have hc : isDigit c = false := hrest c (by simp)
    simp [hc]

namespace WrittenPeriod

variable {p q : WrittenPeriod}

lemma Leads.isDigit_whole (h : p.Leads) : ∀ c ∈ p.whole, isDigit c :=
  fun c hc => h.digits c (by simp [hc])

lemma Leads.isDigit_decimals (h : p.Leads) : ∀ c ∈ p.decimals, isDigit c :=
  fun c hc => h.digits c (by simp [hc])

lemma Leads.unit_head (h : p.Leads) : ∀ c ∈ p.unit.head?, isDigit c = false :=
  fun c hc => (h.stops c hc).1

lemma Leads.unit_ne_point (h : p.Leads) (hf : p.fraction = none) (rest : List Char) :
    p.unit ≠ '.' :: rest := by
  intro hu
  exact (h.stops '.' (by simp [hu])).2 hf rfl

lemma Valid.isNotational_unit (h : p.Valid) : ∀ c ∈ p.unit, IsNotational c := by
  rcases h.unit with hu | hu
  · simp [hu]
  · exact hu.isNotational (by simp)

/-- A unit goes on with neither a digit nor a point. -/
lemma Valid.leads (h : p.Valid) : p.Leads := by
  refine ⟨h.digits, h.some_digit, fun c hc => ?_⟩
  have hc' := h.isNotational_unit c (List.mem_of_mem_head? hc)
  exact ⟨hc'.not_isDigit, fun _ => hc'.ne_point⟩

/-- What follows the digits before the point. -/
def afterWhole (p : WrittenPeriod) : List Char :=
  (p.fraction.elim [] fun ds => '.' :: ds) ++ p.unit

lemma chars_eq (p : WrittenPeriod) : p.chars = p.whole ++ p.afterWhole := by
  simp [chars, afterWhole]

lemma Leads.afterWhole_head (h : p.Leads) : ∀ c ∈ p.afterWhole.head?, isDigit c = false := by
  intro c hc
  cases hf : p.fraction with
  | none => exact h.unit_head c (by simpa [afterWhole, hf] using hc)
  | some ds =>
    have : c = '.' := by simpa [afterWhole, hf, eq_comm] using hc
    rw [this]
    decide

lemma Leads.span_whole (h : p.Leads) :
    p.chars.takeWhile isDigit = p.whole ∧ p.chars.dropWhile isDigit = p.afterWhole := by
  rw [p.chars_eq]
  exact span_digits h.isDigit_whole h.afterWhole_head

/-- A number that is taken as far as it goes is determined by its text. -/
lemma Leads.eq_of_chars_eq (hp : p.Leads) (hq : q.Leads) (h : p.chars = q.chars) : p = q := by
  have hwhole : p.whole = q.whole := by
    rw [← hp.span_whole.1, ← hq.span_whole.1, h]
  have hafter : p.afterWhole = q.afterWhole := by
    rw [← hp.span_whole.2, ← hq.span_whole.2, h]
  obtain ⟨whole, fraction, unit⟩ := p
  obtain ⟨whole', fraction', unit'⟩ := q
  obtain rfl : whole = whole' := hwhole
  -- a unit does not start with a point, so either both have a point or none has
  cases fraction with
  | none =>
    cases fraction' with
    | none =>
      obtain rfl : unit = unit' := by simpa [afterWhole] using hafter
      rfl
    | some ds =>
      exact absurd (by simpa [afterWhole] using hafter) (hp.unit_ne_point rfl (ds ++ unit'))
  | some ds =>
    cases fraction' with
    | none =>
      exact absurd (by simpa [afterWhole] using hafter.symm) (hq.unit_ne_point rfl (ds ++ unit))
    | some ds' =>
      have hrest : ds ++ unit = ds' ++ unit' := by simpa [afterWhole] using hafter
      have hs := span_digits hp.isDigit_decimals hp.unit_head
      have hs' := span_digits hq.isDigit_decimals hq.unit_head
      simp only [decimals, Option.getD_some] at hs hs'
      obtain rfl : ds = ds' := by rw [← hs.1, ← hs'.1, hrest]
      obtain rfl : unit = unit' := by simpa using hrest
      rfl

lemma Valid.ne_space (h : p.Valid) : ' ' ∉ p.chars := by
  have hfraction : ' ' ∉ p.fraction.elim [] fun ds => '.' :: ds := by
    cases hf : p.fraction with
    | none => simp
    | some ds =>
      have : ∀ c ∈ ds, c ≠ ' ' := fun c hc =>
        isDigit.ne_space (h.leads.isDigit_decimals c (by simpa [decimals, hf] using hc))
      simpa [eq_comm] using fun hc => this _ hc rfl
  have hwhole : ' ' ∉ p.whole := fun hc => isDigit.ne_space (h.leads.isDigit_whole _ hc) rfl
  have hunit : ' ' ∉ p.unit := fun hc => (h.isNotational_unit _ hc).ne_space rfl
  simp only [chars, List.mem_append, not_or]
  exact ⟨⟨hwhole, hfraction⟩, hunit⟩

/-- The first character of a written number is a digit or the point. -/
lemma Leads.head (h : p.Leads) : ∃ c cs, p.chars = c :: cs ∧ (isDigit c ∨ c = '.') := by
  cases hw : p.whole with
  | cons c cs => exact ⟨c, cs ++ p.afterWhole, by simp [p.chars_eq, hw],
      Or.inl (h.isDigit_whole c (by simp [hw]))⟩
  | nil =>
    cases hf : p.fraction with
    | none => exact absurd (by simp [hw, decimals, hf]) h.some_digit
    | some ds => exact ⟨'.', ds ++ p.unit, by simp [p.chars_eq, hw, afterWhole, hf], Or.inr rfl⟩

/-- The decimal that a written period is denotes the number that its digits denote. -/
lemma toRat_decimal (p : WrittenPeriod) : p.decimal.toRat = p.value := by
  have hpow : ((tenTo p.decimals.length : ℕ) : ℚ) = 10 ^ p.decimals.length := by
    rw [tenTo, Nat.pow_eq, Nat.cast_pow, Nat.cast_ofNat]
  rw [decimal, value, Decimal.toRat]
  -- without digits after the point the exponent is zero, with some it is negative
  split
  · rename_i hexp
    have hlen : p.decimals.length = 0 := by
      simp only at hexp
      omega
    rw [digitsValue_append, List.length_eq_zero_iff.mp hlen]
    simp [tenTo, digitsValue]
  · simp only [neg_neg, Int.toNat_natCast, hpow]
    rw [digitsValue_append]
    push_cast
    rw [add_div, mul_div_assoc, div_self (by positivity), mul_one]

/-- No well-written period is a colour. -/
lemma Valid.not_spells (h : p.Valid) {name : String} (hname : name ∈ colorNames) :
    ¬ Spells name p.chars := by
  intro hs
  obtain ⟨c, cs, hc, hdigit⟩ := h.leads.head
  have hn : IsNotational c :=
    hs.isNotational (isAlpha_of_mem_colorNames hname) c (by simp [hc])
  rcases hdigit with hd | rfl
  · rw [hn.not_isDigit] at hd
    exact absurd hd (by decide)
  · exact hn.ne_point rfl

end WrittenPeriod

namespace Layout

variable {l l' : Layout} {cs : List Char}

/-- What follows the type. -/
def tail (l : Layout) : List Char := l.groupChars ++ l.words.flatMap (' ' :: ·)

lemma chars_eq_append (l : Layout) : l.chars = l.token ++ l.tail := by
  simp [chars, tail]

lemma flatMap_space {ws : List (List Char)} (h : ws ≠ []) :
    ws.flatMap (' ' :: ·) = ' ' :: unwords ws := by
  induction ws with
  | nil => exact absurd rfl h
  | cons w ws ih =>
    cases ws with
    | nil => simp [unwords]
    | cons v vs =>
      rw [List.flatMap_cons, ih (by simp), unwords_cons (w := w) (by simp)]
      rfl

lemma Valid.words_ne (h : l.Valid) : l.words ≠ [] := by
  simp [words, h.colors_ne]

lemma Valid.words_ne_space (h : l.Valid) : ∀ w ∈ l.words, ' ' ∉ w := by
  intro w hw
  simp only [words, List.mem_append, Option.mem_toList,
    Option.map_eq_some_iff] at hw
  rcases hw with hw | ⟨p, hp, rfl⟩
  · obtain ⟨name, hname, hspells⟩ := h.colors w hw
    exact fun hc => (hspells.isNotational (isAlpha_of_mem_colorNames hname) _ hc).ne_space rfl
  · exact (h.period p hp).ne_space

lemma Valid.tail_eq (h : l.Valid) : l.tail = l.groupChars ++ ' ' :: unwords l.words := by
  rw [tail, flatMap_space h.words_ne]

/-- What follows the type starts with a parenthesis, or with a space and a colour. -/
lemma Valid.tail_shape (h : l.Valid) :
    (∃ rest, l.tail = '(' :: rest) ∨ ∃ name ∈ colorNames, ∃ color rest,
      Spells name color ∧ l.tail = ' ' :: (color ++ rest) := by
  cases hg : l.group with
  | some g => exact Or.inl ⟨_, by rw [tail, groupChars, hg]; rfl⟩
  | none =>
    right
    obtain ⟨color, colors, hcolors⟩ := List.exists_cons_of_ne_nil h.colors_ne
    obtain ⟨name, hname, hspells⟩ := h.colors color (by simp [hcolors])
    refine ⟨name, hname, color, (colors ++ (l.period.map WrittenPeriod.chars).toList).flatMap
      (' ' :: ·), hspells, ?_⟩
    rw [tail, groupChars, hg, words, hcolors]
    rfl

/-- The type of a valid layout is not continued by another valid layout of the same text. -/
lemma Valid.token_not_longer (h : l.Valid) (h' : l'.Valid) {x : List Char}
    (htoken : l'.token = l.token ++ x) (htail : l.tail = x ++ l'.tail) : x = [] := by
  cases x with
  | nil => rfl
  | cons c x =>
    exfalso
    obtain ⟨t, ht⟩ := h'.token
    rcases token_shape ht with
      hletters | ⟨first, second, word, hsplit, hfirst, hword, halpha, hspells⟩
    -- letters only: what follows the shorter type would start with a letter
    · have hc : IsNotational c := hletters c (by simp [htoken])
      rcases h.tail_shape with ⟨rest, hrest⟩ | ⟨_, _, _, rest, _, hrest⟩
      · rw [hrest, List.cons_append, List.cons.injEq] at htail
        exact hc.ne_open htail.1.symm
      · rw [hrest, List.cons_append, List.cons.injEq] at htail
        exact hc.ne_space htail.1.symm
    · rcases h.tail_shape with ⟨rest, hrest⟩ | ⟨name, hname, color, rest, hcolor, hrest⟩
      -- a group after the shorter type: the longer one would hold a parenthesis
      · rw [hrest, List.cons_append, List.cons.injEq] at htail
        have hmem : '(' ∈ first ++ ' ' :: second := by
          rw [← hsplit, htoken, ← htail.1]
          simp
        rcases List.mem_append.mp hmem with hm | hm
        · exact (hfirst _ hm).ne_open rfl
        · rcases List.mem_cons.mp hm with hm | hm
          · exact absurd hm (by decide)
          · exact (hspells.isNotational halpha _ hm).ne_open rfl
      -- the second word of the longer type would start like the colour after the shorter one
      · rw [hrest, List.cons_append, List.cons.injEq] at htail
        obtain ⟨rfl, htail⟩ := htail
        have hsecond : ' ' ∉ second := fun hm => (hspells.isNotational halpha _ hm).ne_space rfl
        have hspace : first ++ ' ' :: second = l.token ++ ' ' :: x := by rw [← hsplit, htoken]
        have hx : second = x :=
          ((List.append_cons_inj_of_notMem
            (fun hm => (hfirst _ hm).ne_space rfl) hsecond).mp hspace).2.2
        rw [← hx] at htail
        exact secondWord_ne_color hword hname hspells hcolor htail.symm

lemma Valid.token_eq (h : l.Valid) (h' : l'.Valid) (heq : l.chars = l'.chars) :
    l.token = l'.token := by
  rw [chars_eq_append, chars_eq_append] at heq
  rcases List.append_eq_append_iff.mp heq with ⟨x, htoken, htail⟩ | ⟨x, htoken, htail⟩
  · rw [htoken, h.token_not_longer h' htoken htail, List.append_nil]
  · rw [htoken, h'.token_not_longer h htoken htail, List.append_nil]

lemma Valid.group_eq (h : l.Valid) (h' : l'.Valid) (heq : l.tail = l'.tail) :
    l.group = l'.group ∧ unwords l.words = unwords l'.words := by
  rw [h.tail_eq, h'.tail_eq, groupChars, groupChars] at heq
  cases hg : l.group with
  | none =>
    cases hg' : l'.group with
    | none => exact ⟨rfl, by simpa [hg, hg'] using heq⟩
    | some g' => simp [hg, hg'] at heq
  | some g =>
    cases hg' : l'.group with
    | none => simp [hg, hg'] at heq
    | some g' =>
      have hcut : g ++ ')' :: ' ' :: unwords l.words = g' ++ ')' :: ' ' :: unwords l'.words := by
        simpa [hg, hg'] using heq
      obtain ⟨rfl, hrest⟩ := append_sep_inj (h.group g hg).2 (h'.group g' hg').2 hcut
      exact ⟨rfl, by simpa using hrest⟩

lemma Valid.words_eq (h : l.Valid) (h' : l'.Valid) (heq : unwords l.words = unwords l'.words) :
    l.words = l'.words := by
  rw [← splitAt_unwords h.words_ne h.words_ne_space, heq,
    splitAt_unwords h'.words_ne h'.words_ne_space]

open Classical in
/-- The colours are the words before the first one that is no colour. -/
lemma Valid.takeWhile_words (h : l.Valid) :
    l.words.takeWhile (fun w => ∃ name ∈ colorNames, Spells name w) = l.colors := by
  rw [words, List.takeWhile_append_of_pos (fun w hw => by simpa using h.colors w hw)]
  cases hp : l.period with
  | none => simp
  | some p =>
    have : ¬ ∃ name ∈ colorNames, Spells name p.chars := by
      rintro ⟨name, hname, hspells⟩
      exact (h.period p hp).not_spells hname hspells
    simp [this]

lemma Valid.colors_eq (h : l.Valid) (h' : l'.Valid) (heq : l.words = l'.words) :
    l.colors = l'.colors ∧ l.period = l'.period := by
  have hcolors : l.colors = l'.colors := by
    rw [← h.takeWhile_words, heq, h'.takeWhile_words]
  refine ⟨hcolors, ?_⟩
  rw [words, words, hcolors, List.append_cancel_left_eq] at heq
  -- what is left of the words is the period
  cases hp : l.period with
  | none =>
    cases hp' : l'.period with
    | none => rfl
    | some p' => simp [hp, hp'] at heq
  | some p =>
    cases hp' : l'.period with
    | none => simp [hp, hp'] at heq
    | some p' =>
      have hchars : p.chars = p'.chars := by simpa [hp, hp'] using heq
      rw [(h.period p hp).leads.eq_of_chars_eq (h'.period p' hp').leads hchars]

/-- A text has at most one valid layout. -/
theorem IsOf.unique (h : l.IsOf cs) (h' : l'.IsOf cs) : l = l' := by
  have heq : l.chars = l'.chars := h.chars_eq.trans h'.chars_eq.symm
  have htoken := h.token_eq h'.toValid heq
  have htail : l.tail = l'.tail := by
    rw [chars_eq_append, chars_eq_append, htoken] at heq
    simpa using heq
  obtain ⟨hgroup, hwords⟩ := h.group_eq h'.toValid htail
  obtain ⟨hcolors, hperiod⟩ := h.colors_eq h'.toValid (h.words_eq h'.toValid hwords)
  cases l
  cases l'
  simp only at htoken hgroup hcolors hperiod
  rw [htoken, hgroup, hcolors, hperiod]

end Layout

end Seamark.Characteristic
