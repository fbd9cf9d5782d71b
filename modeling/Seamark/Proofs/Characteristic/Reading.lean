import Seamark.Proofs.Characteristic.Grammar
import Seamark.Proofs.Decimal.Nearest

/-!
# The reader follows the grammar

The reader accepts a text exactly when the text has a valid layout, and gives what the layout
denotes.  Each function of the reader is compared with the part of the grammar that it reads: what
it takes from the start of a text is a part, and a part followed by the right thing is taken.  The
reader's letters leave out the dotted capital, because the capitals of a type written with it name
no type.
-/

namespace Seamark.Characteristic

open Seamark.Text

/-! ### The type -/

/-- The reader compares letters as the grammar does, but for the dotted capital. -/
lemma plainLetter_eq_iff {w c : Char} (hw : w.isAlpha) :
    plainLetter c = plainLetter w ↔ SameLetter w c ∧ c ≠ 'İ' := by
  have hlower : w.toLower.isAlpha := by simpa using hw
  have hne : ∀ d : Char, d.isAlpha = false → d ≠ w.toLower := by
    rintro d hd rfl
    rw [hd] at hlower
    exact absurd hlower (by decide)
  have hplain : plainLetter w = w.toLower := by
    have h1 : w ≠ 'ı' := by rintro rfl; exact absurd hw (by decide)
    have h2 : w ≠ 'ſ' := by rintro rfl; exact absurd hw (by decide)
    rw [plainLetter, if_neg h1, if_neg h2]
  rw [hplain, SameLetter]
  -- the dotless i and the long s are read as plain letters, the dotted capital is not
  by_cases h1 : c = 'ı'
  · subst h1
    have hi : plainLetter 'ı' = 'i' := by decide
    have := hne 'ı' (by decide)
    simp [hi, this, eq_comm]
  · by_cases h2 : c = 'ſ'
    · subst h2
      have hs : plainLetter 'ſ' = 's' := by decide
      have := hne 'ſ' (by decide)
      simp [hs, this, eq_comm]
    · rw [plainLetter, if_neg h1, if_neg h2]
      by_cases h3 : c = 'İ'
      · subst h3
        simpa using hne 'İ'.toLower (by decide)
      · simp [h1, h2, h3]

lemma takeWord?_eq_some_iff {ws cs rest : List Char} (hw : ∀ w ∈ ws, w.isAlpha) :
    takeWord? ws cs = some rest ↔
      ∃ word, cs = word ++ rest ∧ List.Forall₂ SameLetter ws word ∧ 'İ' ∉ word := by
  induction ws generalizing cs with
  | nil =>
    constructor
    · intro h
      exact ⟨[], by simpa [takeWord?] using h, List.Forall₂.nil, by simp⟩
    · rintro ⟨word, rfl, hword, -⟩
      cases hword
      rfl
  | cons w ws ih =>
    have hwa : w.isAlpha := hw w (by simp)
    have ih' := fun cs => @ih cs fun v hv => hw v (by simp [hv])
    cases cs with
    | nil =>
      simp only [takeWord?, reduceCtorEq, false_iff]
      rintro ⟨word, hcs, hword, -⟩
      cases hword
      simp at hcs
    | cons c cs =>
      rw [takeWord?]
      constructor
      · intro h
        split at h
        · rename_i hc
          obtain ⟨hsame, hne⟩ := (plainLetter_eq_iff hwa).mp hc
          obtain ⟨word, rfl, hword, hdot⟩ := (ih' cs).mp h
          refine ⟨c :: word, rfl, List.Forall₂.cons hsame hword, ?_⟩
          simpa [hdot] using hne.symm
        · simp at h
      · rintro ⟨word, hcs, hword, hdot⟩
        cases hword with
        | @cons _ d _ ds hd hds =>
          rw [List.cons_append, List.cons.injEq] at hcs
          obtain ⟨rfl, rfl⟩ := hcs
          rw [List.mem_cons, not_or] at hdot
          rw [if_pos ((plainLetter_eq_iff hwa).mpr ⟨hd, Ne.symm hdot.1⟩)]
          exact (ih' _).mpr ⟨ds, rfl, hds, hdot.2⟩

/-- A word of the notation before more text does not start with a space. -/
lemma SpellsAll.head_ne_space {word : String} {words : List String} {cs : List Char}
    (hne : word.toList ≠ []) (hw : ∀ w ∈ word.toList, w.isAlpha)
    (h : SpellsAll (word :: words) cs) (more rest : List Char) : cs ++ more ≠ ' ' :: rest := by
  have hfirst : ∃ first tail, cs = first ++ tail ∧ Spells word first := by
    cases words with
    | nil => exact ⟨cs, [], by simp, h⟩
    | cons v vs =>
      obtain ⟨first, second, hfirst, -, rfl | rfl⟩ := h
      · exact ⟨first, second, rfl, hfirst⟩
      · exact ⟨first, ' ' :: second, rfl, hfirst⟩
  obtain ⟨first, tail, rfl, hfirst⟩ := hfirst
  obtain ⟨w, ws, hword⟩ := List.exists_cons_of_ne_nil hne
  obtain ⟨c, cs', hc, hsame⟩ := hfirst.head hword (tail ++ more)
  rw [List.append_assoc, hc]
  intro heq
  rw [List.cons.injEq] at heq
  exact (hsame.isNotational (hw w (by simp [hword]))).ne_space heq.1

/-- The reader takes the words of a type just where the grammar finds them. -/
lemma takeWords?_eq_some_iff {words : List String} {cs rest : List Char}
    (hw : ∀ word ∈ words, word.toList ≠ [] ∧ ∀ w ∈ word.toList, w.isAlpha) :
    takeWords? (words.map (·.toList)) cs = some rest ↔
      ∃ token, cs = token ++ rest ∧ SpellsAll words token ∧ 'İ' ∉ token := by
  induction words generalizing cs with
  | nil =>
    constructor
    · intro h
      exact ⟨[], by simpa [takeWords?] using h, rfl, by simp⟩
    · rintro ⟨token, rfl, htoken, -⟩
      obtain rfl : token = [] := htoken
      rfl
  | cons word words ih =>
    have hword := (hw word (by simp)).2
    cases words with
    | nil => exact takeWord?_eq_some_iff hword
    | cons v vs =>
      have hv := hw v (by simp)
      have ih' := fun cs => @ih cs fun u hu => hw u (by simp [hu])
      simp only [List.map_cons] at ih' ⊢
      rw [takeWords?.eq_3 _ _ _ (by simp)]
      constructor
      · intro h
        cases htake : takeWord? word.toList cs with
        | none => simp [htake] at h
        | some after =>
          obtain ⟨first, rfl, hfirst, hdot⟩ := (takeWord?_eq_some_iff hword).mp htake
          rw [htake] at h
          -- after the first word stands a space or the next word
          split at h
          · simp at h
          · rename_i rest' heq
            obtain rfl : after = ' ' :: rest' := by simpa using heq
            obtain ⟨second, rfl, hsecond, hdot'⟩ := (ih' _).mp h
            exact ⟨first ++ ' ' :: second, by simp, ⟨first, second, hfirst, hsecond, Or.inr rfl⟩,
              by simp [hdot, hdot']⟩
          · rename_i rest' _ heq
            obtain rfl : after = rest' := by simpa using heq
            obtain ⟨second, rfl, hsecond, hdot'⟩ := (ih' _).mp h
            exact ⟨first ++ second, by simp, ⟨first, second, hfirst, hsecond, Or.inl rfl⟩,
              by simp [hdot, hdot']⟩
      · rintro ⟨token, rfl, ⟨first, second, hfirst, hsecond, htoken⟩, hdot⟩
        have htake : ∀ after, takeWord? word.toList (first ++ after) = some after := by
          intro after
          refine (takeWord?_eq_some_iff hword).mpr ⟨first, rfl, hfirst, fun hmem => hdot ?_⟩
          rcases htoken with rfl | rfl <;> simp [hmem]
        have hdot' : 'İ' ∉ second := fun hmem => hdot (by
          rcases htoken with rfl | rfl <;> simp [hmem])
        have hafter := (ih' (second ++ rest)).mpr ⟨second, rfl, hsecond, hdot'⟩
        rcases htoken with rfl | rfl
        · rw [List.append_assoc, htake]
          split
          · rename_i heq
            simp at heq
          · rename_i rest' heq
            -- no space is skipped, since the second word does not start with one
            exact absurd (by simpa using heq) (hsecond.head_ne_space hv.1 hv.2 rest rest')
          · rename_i rest' _ heq
            obtain rfl : second ++ rest = rest' := by simpa using heq
            exact hafter
        · rw [List.append_assoc, htake]
          exact hafter

/-! ### The name of a type -/

/-- A capital letter is the capital of every character that matches it, but for the dotted capital,
which is its own. -/
lemma capital_of_sameLetter {w c : Char} (hw : w.isUpper) (h : SameLetter w c) (hc : c ≠ 'İ') :
    capital c = [w] := by
  have hwup : w.toUpper = w :=
    Char.toUpper_eq_of_not_isLower (Char.not_isLower_of_isUpper hw)
  have hup : ∀ d : Char, d.toLower = w.toLower → d.toUpper = w := by
    intro d hd
    rw [← Char.toUpper_toLower_eq_toUpper, hd, Char.toUpper_toLower_eq_toUpper, hwup]
  rcases h with h | ⟨h, rfl | rfl⟩ | ⟨h, rfl⟩
  · have halpha : c.isAlpha := by
      rw [← Char.isAlpha_toLower_eq_isAlpha, h, Char.isAlpha_toLower_eq_isAlpha]
      simp [Char.isAlpha, hw]
    have hlt : c.toNat < 128 := by
      have := isAlpha_range halpha
      omega
    rw [capital, if_pos hlt, hup c h]
  -- the dotless i and the long s have plain capitals
  · have hI : w = 'I' := by rw [← hup 'i' (by rw [h]; rfl)]; rfl
    rw [hI]
    decide +kernel
  · exact absurd rfl hc
  · have hS : w = 'S' := by rw [← hup 's' (by rw [h]; rfl)]; rfl
    rw [hS]
    decide +kernel

lemma upperChars_of_spells {word : String} {cs : List Char} (hw : ∀ w ∈ word.toList, w.isUpper)
    (h : Spells word cs) (hdot : 'İ' ∉ cs) : upperChars cs = word.toList := by
  rw [Spells] at h
  generalize word.toList = ws at h hw
  induction h with
  | nil => rfl
  | @cons w c ws cs hwc _ ih =>
    rw [List.mem_cons, not_or] at hdot
    have htail : upperChars cs = ws := ih hdot.2 fun v hv => hw v (by simp [hv])
    have hhead := capital_of_sameLetter (hw w (by simp)) hwc (Ne.symm hdot.1)
    rw [upperChars, List.flatMap_cons, hhead]
    exact congrArg (w :: ·) htail

lemma filter_not_isBlank {cs : List Char} (h : ∀ c ∈ cs, IsNotational c) :
    cs.filter (fun c => !isBlank c) = cs :=
  List.filter_eq_self.mpr fun c hc => by simp [(h c hc).not_isBlank]

/-- The capitals of a type without its blanks are its canonical name. -/
lemma upperChars_of_spellsAll {words : List String} {token : List Char}
    (hw : ∀ word ∈ words, ∀ w ∈ word.toList, w.isUpper) (h : SpellsAll words token)
    (hdot : 'İ' ∉ token) :
    upperChars (token.filter fun c => !isBlank c) = words.flatMap String.toList := by
  have halpha : ∀ word ∈ words, ∀ w ∈ word.toList, w.isAlpha := fun word hword w hmem => by
    simp [Char.isAlpha, hw word hword w hmem]
  induction words generalizing token with
  | nil =>
    obtain rfl : token = [] := h
    rfl
  | cons word words ih =>
    cases words with
    | nil =>
      rw [filter_not_isBlank (Spells.isNotational (halpha word (by simp)) h),
        upperChars_of_spells (hw word (by simp)) h hdot]
      simp
    | cons v vs =>
      obtain ⟨first, second, hfirst, hsecond, htoken⟩ := h
      have hdots : 'İ' ∉ first ∧ 'İ' ∉ second := by
        rcases htoken with rfl | rfl <;> simpa using hdot
      have hspace : isBlank ' ' = true := by decide
      -- the space between the words is dropped
      have hfilter : token.filter (fun c => !isBlank c)
          = first ++ second.filter fun c => !isBlank c := by
        rcases htoken with rfl | rfl <;>
          simp [hspace, filter_not_isBlank (hfirst.isNotational (halpha word (by simp)))]
      have hrest := ih (fun u hu => hw u (by simp [hu])) hsecond hdots.2
        (fun u hu => halpha u (by simp [hu]))
      rw [hfilter, upperChars, List.flatMap_append, List.flatMap_cons]
      congr 1
      exact upperChars_of_spells (hw word (by simp)) hfirst hdots.1

lemma dot_mem_upperChars {token : List Char} (h : 'İ' ∈ token) :
    'İ' ∈ upperChars (token.filter fun c => !isBlank c) := by
  have hcapital : capital 'İ' = ['İ'] := by decide +kernel
  have hblank : isBlank 'İ' = false := by decide
  refine List.mem_flatMap.mpr ⟨'İ', List.mem_filter.mpr ⟨h, by simp [hblank]⟩, ?_⟩
  simp [hcapital]

lemma find?_compactName (t : LightType) :
    LightType.all.find? (fun s => s.compactName.toList = t.compactName.toList) = some t := by
  cases t <;> rfl

lemma dot_not_mem_compactName (t : LightType) : 'İ' ∉ t.compactName.toList := by
  cases t <;> decide

/-- A text that matches a type names that type, unless a dotted capital stands in it. -/
lemma ofToken?_of_spellsAll {t : LightType} {token : List Char} (h : SpellsAll t.spelling token) :
    LightType.ofToken? (String.ofList token) = if 'İ' ∈ token then none else some t := by
  rw [LightType.ofToken?, String.toList_ofList]
  split
  · rename_i hdot
    refine List.find?_eq_none.mpr fun s _ => ?_
    have hkey := dot_mem_upperChars hdot
    simp only [decide_eq_true_eq]
    intro heq
    exact dot_not_mem_compactName s (heq ▸ hkey)
  · rename_i hdot
    have hkey := upperChars_of_spellsAll
      (fun word hword => (spelling_letters t word hword).2) h hdot
    have hname : t.compactName.toList = t.spelling.flatMap String.toList := by
      simp [LightType.compactName]
    simp only [hkey, ← hname]
    exact find?_compactName t

/-- The reader takes a type from the start of a text just when a text that matches the type and has
that name stands there. -/
lemma takeType?_eq_some_iff {t : LightType} {cs rest : List Char} :
    takeType? t cs = some rest ↔ ∃ token, cs = token ++ rest ∧ SpellsAll t.spelling token ∧
      LightType.ofToken? (String.ofList token) = some t := by
  have hw : ∀ word ∈ t.spelling, word.toList ≠ [] ∧ ∀ w ∈ word.toList, w.isAlpha :=
    fun word hword => ⟨(spelling_letters t word hword).1, isAlpha_of_mem_spelling hword⟩
  rw [takeType?, takeWords?_eq_some_iff hw]
  refine exists_congr fun token => and_congr_right fun _ => and_congr_right fun h => ?_
  rw [ofToken?_of_spellsAll h]
  by_cases hdot : 'İ' ∈ token <;> simp [hdot]

/-! ### The group -/

/-- The reader finds a group exactly where some text without a closing parenthesis stands between
parentheses, and none where no parenthesis opens. -/
lemma takeGroup?_eq_some_iff {cs rest : List Char} {group : Option String} :
    takeGroup? cs = some (group, rest) ↔
      (group = none ∧ rest = cs ∧ ∀ more, cs ≠ '(' :: more) ∨
        ∃ g, g ≠ [] ∧ ')' ∉ g ∧ group = some (String.ofList g) ∧
          cs = '(' :: (g ++ ')' :: rest) := by
  by_cases hopen : ∃ more, cs = '(' :: more
  · obtain ⟨more, rfl⟩ := hopen
    have hsplit := List.takeWhile_append_dropWhile (l := more) (p := fun c => decide (c ≠ ')'))
    have hclose : ')' ∉ more.takeWhile fun c => decide (c ≠ ')') := by
      intro hmem
      simpa using List.mem_takeWhile_imp hmem
    simp only [takeGroup?]
    constructor
    · intro h
      right
      split at h
      · rename_i after hafter
        split at h
        · simp at h
        · rename_i hne
          simp only [Option.some.injEq, Prod.mk.injEq] at h
          obtain ⟨rfl, rfl⟩ := h
          refine ⟨_, by simpa using hne, hclose, rfl, ?_⟩
          rw [← hafter, hsplit]
      · simp at h
    · rintro (⟨-, -, h⟩ | ⟨g, hne, hg, rfl, h⟩)
      · exact absurd rfl (h more)
      · obtain rfl : more = g ++ ')' :: rest := by simpa using h
        have hall : ∀ c ∈ g, decide (c ≠ ')') = true := fun c hc => by
          simpa using fun heq : c = ')' => hg (heq ▸ hc)
        rw [List.takeWhile_append_of_pos hall, List.dropWhile_append_of_pos hall]
        simp [hne]
  · push Not at hopen
    have hnone : takeGroup? cs = some (none, cs) := by
      rw [takeGroup?.eq_2]
      exact hopen
    rw [hnone]
    constructor
    · intro h
      simp only [Option.some.injEq, Prod.mk.injEq] at h
      exact Or.inl ⟨h.1.symm, h.2.symm, hopen⟩
    · rintro (⟨rfl, rfl, -⟩ | ⟨g, -, -, -, h⟩)
      · rfl
      · exact absurd h (hopen _)

/-! ### The colours -/

lemma capital_of_lt {c : Char} (h : c.toNat < 128) : capital c = [c.toUpper] := by
  rw [capital, if_pos h]

lemma upperChars_of_lt {cs : List Char} (h : ∀ c ∈ cs, c.toNat < 128) :
    upperChars cs = cs.map Char.toUpper := by
  induction cs with
  | nil => rfl
  | cons c cs ih =>
    have htail : upperChars cs = cs.map Char.toUpper := ih fun d hd => h d (by simp [hd])
    rw [upperChars, List.flatMap_cons, capital_of_lt (h c (by simp)), List.map_cons]
    exact congrArg (c.toUpper :: ·) htail

/-- The letters of a colour name are matched in their two cases only. -/
lemma toLower_of_spells_color {name : String} {word : List Char} (hname : name ∈ colorNames)
    (h : Spells name word) :
    List.Forall₂ (fun w c => c.toLower = w.toLower ∧ c.isAlpha) name.toList word := by
  have hfree : ∀ w ∈ name.toList, w.toLower ≠ 'i' ∧ w.toLower ≠ 's' ∧ w.isAlpha := by
    simp only [colorNames, List.mem_cons, List.not_mem_nil, or_false] at hname
    rcases hname with rfl | rfl | rfl | rfl | rfl <;> simp
  rw [Spells] at h
  generalize name.toList = ws at h hfree
  induction h with
  | nil => exact List.Forall₂.nil
  | @cons w c ws cs hwc _ ih =>
    obtain ⟨hi, hs, ha⟩ := hfree w (by simp)
    have hlower := hwc.toLower_eq hi hs
    refine List.Forall₂.cons ⟨hlower, ?_⟩ (ih fun v hv => hfree v (by simp [hv]))
    rw [← Char.isAlpha_toLower_eq_isAlpha, hlower, Char.isAlpha_toLower_eq_isAlpha]
    exact ha

/-- A word matches its own capitals. -/
lemma forall₂_toUpper (cs : List Char) : List.Forall₂ SameLetter (cs.map Char.toUpper) cs := by
  induction cs with
  | nil => exact List.Forall₂.nil
  | cons c cs ih => exact List.Forall₂.cons (Or.inl (by simp)) ih

/-- A word of plain characters matches its canonical spelling. -/
lemma spells_canonicalColor {word : List Char} (hlt : ∀ c ∈ word, c.toNat < 128) :
    Spells (canonicalColor (String.ofList word)) word := by
  have hupper : Text.upper (String.ofList word) = String.ofList (word.map Char.toUpper) := by
    rw [Text.upper, String.toList_ofList, upperChars_of_lt hlt]
  rw [canonicalColor, hupper]
  -- only the name of amber is not made of capitals
  have hcapitals := forall₂_toUpper word
  split
  · rename_i hAM
    have hlist : word.map Char.toUpper = ['A', 'M'] := by
      rw [← String.toList_ofList (l := word.map Char.toUpper), hAM]
      rfl
    rw [hlist] at hcapitals
    cases hcapitals with
    | cons hA htail =>
      cases htail with
      | cons hM hnil =>
        cases hnil
        exact List.Forall₂.cons hA (List.Forall₂.cons hM List.Forall₂.nil)
  · rw [Spells, String.toList_ofList]
    exact hcapitals

lemma lt_of_spells_color {name : String} {word : List Char} (hname : name ∈ colorNames)
    (h : Spells name word) : ∀ c ∈ word, c.toNat < 128 := by
  intro c hc
  obtain ⟨w, -, -, halpha⟩ := exists_of_mem_right (toLower_of_spells_color hname h) hc
  have := isAlpha_range halpha
  omega

/-- The canonical spelling of a word that matches a colour is the name of the colour. -/
lemma canonicalColor_of_spells {name : String} {word : List Char} (hname : name ∈ colorNames)
    (h : Spells name word) : canonicalColor (String.ofList word) = name := by
  have hmap : word.map Char.toUpper = name.toList.map Char.toUpper := by
    have hlower := toLower_of_spells_color hname h
    clear h
    generalize name.toList = ws at hlower
    induction hlower with
    | nil => rfl
    | @cons w c ws cs hwc _ ih =>
      rw [List.map_cons, List.map_cons, ih, ← Char.toUpper_toLower_eq_toUpper, hwc.1,
        Char.toUpper_toLower_eq_toUpper]
  rw [canonicalColor, Text.upper, String.toList_ofList,
    upperChars_of_lt (lt_of_spells_color hname h), hmap]
  simp only [colorNames, List.mem_cons, List.not_mem_nil, or_false] at hname
  rcases hname with rfl | rfl | rfl | rfl | rfl <;> decide

/-- The reader knows the colour words and gives their canonical names. -/
lemma color?_eq_some_iff {word : List Char} {name : String} :
    color? word = some name ↔ name ∈ colorNames ∧ Spells name word := by
  constructor
  · intro h
    simp only [color?, Option.ite_none_right_eq_some, Option.some.injEq, Bool.and_eq_true,
      List.all_eq_true, decide_eq_true_eq, List.contains_iff_mem] at h
    obtain ⟨⟨hlt, hmem⟩, rfl⟩ := h
    exact ⟨hmem, spells_canonicalColor hlt⟩
  · rintro ⟨hname, hspells⟩
    have hall : word.all (fun c => decide (c.toNat < 128)) = true := by
      simpa using lt_of_spells_color hname hspells
    have hcontains : ["W", "R", "G", "Y", "Am"].contains name = true :=
      List.contains_iff_mem.mpr hname
    simp only [color?, canonicalColor_of_spells hname hspells, hall, hcontains, Bool.and_self,
      if_true]

/-! ### The period -/

/-- The reader takes the digits and the point of a number and leaves what follows it. -/
lemma WrittenPeriod.Leads.takeDecimal? {p : WrittenPeriod} (h : p.Leads) :
    Decimal.takeDecimal? p.chars = some (p.decimal, p.unit) := by
  have hdigit := h.some_digit
  rw [Decimal.takeDecimal?, h.span_whole.1, h.span_whole.2, decimal]
  cases hf : p.fraction with
  | none =>
    have hne : p.whole ≠ [] := by simpa [decimals, hf] using hdigit
    have hafter : p.afterWhole = p.unit := by simp [afterWhole, hf]
    rw [hafter]
    split
    · rename_i rest hpoint
      exact absurd hpoint (h.unit_ne_point hf rest)
    · simp [hne, decimals, hf]
  | some ds =>
    have hds := @span_digits ds p.unit
      (fun c hc => h.isDigit_decimals c (by simpa [decimals, hf] using hc)) h.unit_head
    have hsome : (p.whole.isEmpty && ds.isEmpty) = false := by
      have : p.whole ++ ds ≠ [] := by simpa [decimals, hf] using hdigit
      cases hw : p.whole <;> cases hd : ds <;> simp_all
    simp only [afterWhole, hf, Option.elim_some, List.cons_append, hds.1, hds.2, hsome, decimals,
      Option.getD_some]
    rfl

/-- The reader's test of what follows a number is the grammar's. -/
lemma unit_iff {rest : List Char} :
    (rest.map plainLetter = [] ∨ rest.map plainLetter = ['s']) ↔ rest = [] ∨ Spells "s" rest := by
  have hs : 's'.isAlpha := by decide
  have hplain : plainLetter 's' = 's' := by decide
  refine or_congr List.map_eq_nil_iff ?_
  constructor
  · intro h
    obtain ⟨c, rfl, hc⟩ := List.map_eq_singleton_iff.mp h
    have hsame := ((plainLetter_eq_iff hs).mp (hc.trans hplain.symm)).1
    exact List.Forall₂.cons hsame List.Forall₂.nil
  · intro h
    cases h with
    | @cons _ c _ cs hc hnil =>
      cases hnil
      have hne : c ≠ 'İ' := by
        rintro rfl
        rcases hc with h | ⟨h, -⟩ | ⟨-, h⟩
        all_goals exact absurd h (by decide)
      rw [List.map_cons, (plainLetter_eq_iff hs).mpr ⟨hc, hne⟩, hplain]
      rfl

/-- The number that the reader takes is taken as far as it goes. -/
lemma exists_of_takeDecimal? {word rest : List Char} {d : Decimal}
    (h : Decimal.takeDecimal? word = some (d, rest)) :
    ∃ p : WrittenPeriod, p.Leads ∧ p.unit = rest ∧ p.chars = word ∧ p.decimal = d := by
  have hdigit : ∀ cs : List Char, ∀ c ∈ cs.takeWhile isDigit, isDigit c = true :=
    fun cs c hc => List.mem_takeWhile_imp hc
  have hstop : ∀ cs : List Char, ∀ c ∈ (cs.dropWhile isDigit).head?, isDigit c = false :=
    fun cs c hc => by simpa [Option.mem_def.mp hc] using List.head?_dropWhile_not isDigit cs
  have hword := List.takeWhile_append_dropWhile (l := word) (p := isDigit)
  simp only [Decimal.takeDecimal?] at h
  split at h
  -- with a point the digits go on after it
  · rename_i after hafter
    split at h
    · simp at h
    · rename_i hne
      simp only [Option.some.injEq, Prod.mk.injEq] at h
      obtain ⟨rfl, rfl⟩ := h
      refine ⟨⟨word.takeWhile isDigit, some (after.takeWhile isDigit), after.dropWhile isDigit⟩,
        ⟨?_, ?_, fun c hc => ⟨hstop after c hc, nofun⟩⟩, rfl, ?_, rfl⟩
      · intro c hc
        rcases List.mem_append.mp hc with hc | hc
        · exact hdigit word c hc
        · exact hdigit after c hc
      · intro hnil
        have hboth := List.append_eq_nil_iff.mp hnil
        have h1 : word.takeWhile isDigit = [] := hboth.1
        have h2 : after.takeWhile isDigit = [] := hboth.2
        exact hne (by rw [h1, h2]; rfl)
      · simp only [WrittenPeriod.chars, Option.elim_some, List.append_assoc, List.cons_append,
          List.takeWhile_append_dropWhile]
        rw [← hafter, hword]
  -- without a point what follows the digits is the unit
  · rename_i hpoint
    split at h
    · simp at h
    · rename_i hne
      simp only [Option.some.injEq, Prod.mk.injEq] at h
      obtain ⟨rfl, rfl⟩ := h
      refine ⟨⟨word.takeWhile isDigit, none, word.dropWhile isDigit⟩,
        ⟨?_, ?_, fun c hc => ⟨hstop word c hc, fun _ => ?_⟩⟩, rfl, ?_, ?_⟩
      · intro c hc
        exact hdigit word c (by simpa [WrittenPeriod.decimals] using hc)
      · intro hnil
        have h1 : word.takeWhile isDigit = [] := by
          simpa [WrittenPeriod.decimals] using hnil
        exact hne (by rw [h1]; rfl)
      · rintro rfl
        obtain ⟨rest, hrest⟩ := List.head?_eq_some_iff.mp (Option.mem_def.mp hc)
        exact hpoint rest hrest
      · simp [WrittenPeriod.chars]
      · simp [WrittenPeriod.decimal, WrittenPeriod.decimals]

/-- The reader reads well-written periods, as the decimals that they are. -/
lemma period?_eq_some_iff {word : List Char} {d : Decimal} :
    period? word = some d ↔ ∃ p : WrittenPeriod, p.Valid ∧ p.chars = word ∧ p.decimal = d := by
  constructor
  · intro h
    simp only [period?, Option.bind_eq_bind, Option.bind_eq_some_iff] at h
    obtain ⟨⟨e, rest⟩, htake, hunit⟩ := h
    simp only [Option.ite_none_right_eq_some, Option.some.injEq] at hunit
    obtain ⟨hunit, rfl⟩ := hunit
    obtain ⟨p, hp, rfl, hchars, hdecimal⟩ := exists_of_takeDecimal? htake
    exact ⟨p, ⟨hp.digits, hp.some_digit, unit_iff.mp hunit⟩, hchars, hdecimal⟩
  · rintro ⟨p, hp, rfl, rfl⟩
    simp only [period?, hp.leads.takeDecimal?, Option.bind_eq_bind, Option.bind_some]
    rw [if_pos (unit_iff.mpr hp.unit)]

/-! ### The words after the type -/

/-- The reader reads colours up to the end or up to a period in the last place. -/
lemma readWords?_eq_some_iff {words : List (List Char)} {names : List String}
    {d : Option Decimal} :
    readWords? words = some (names, d) ↔
      ∃ (colors : List (List Char)) (period : Option WrittenPeriod),
      words = colors ++ (period.map WrittenPeriod.chars).toList ∧
      List.Forall₂ (fun name word => name ∈ colorNames ∧ Spells name word) names colors ∧
      (∀ p ∈ period, p.Valid) ∧ d = period.map WrittenPeriod.decimal := by
  induction words generalizing names with
  | nil =>
    constructor
    · intro h
      simp only [readWords?, Option.some.injEq, Prod.mk.injEq] at h
      obtain ⟨rfl, rfl⟩ := h
      exact ⟨[], none, rfl, List.Forall₂.nil, by simp, rfl⟩
    · rintro ⟨colors, period, hwords, hcolors, -, rfl⟩
      obtain ⟨rfl, hperiod⟩ := List.append_eq_nil_iff.mp hwords.symm
      cases hcolors
      cases period with
      | none => rfl
      | some p => simp at hperiod
  | cons word words ih =>
    rw [readWords?]
    constructor
    · intro h
      cases hc : color? word with
      | some color =>
        rw [hc] at h
        simp only [Option.map_eq_some_iff] at h
        obtain ⟨⟨names', d'⟩, hread, heq⟩ := h
        simp only [Prod.mk.injEq] at heq
        obtain ⟨rfl, rfl⟩ := heq
        obtain ⟨colors, period, rfl, hcolors, hperiod, rfl⟩ := ih.mp hread
        exact ⟨word :: colors, period, rfl,
          List.Forall₂.cons (color?_eq_some_iff.mp hc) hcolors, hperiod, rfl⟩
      | none =>
        -- a word that is no colour is the last one, and a period
        rw [hc] at h
        simp only [Option.ite_none_right_eq_some, Option.map_eq_some_iff, List.isEmpty_iff] at h
        obtain ⟨rfl, e, he, heq⟩ := h
        simp only [Prod.mk.injEq] at heq
        obtain ⟨rfl, rfl⟩ := heq
        obtain ⟨p, hp, rfl, rfl⟩ := period?_eq_some_iff.mp he
        exact ⟨[], some p, rfl, List.Forall₂.nil, by simpa using hp, rfl⟩
    · rintro ⟨colors, period, hwords, hcolors, hperiod, rfl⟩
      cases hcolors with
      | @cons name color names colors hname hrest =>
        obtain ⟨rfl, rfl⟩ : word = color ∧ words = colors ++ _ := by simpa using hwords
        rw [color?_eq_some_iff.mpr hname]
        simp only [Option.map_eq_some_iff]
        exact ⟨(names, period.map WrittenPeriod.decimal),
          ih.mpr ⟨colors, period, rfl, hrest, hperiod, rfl⟩, rfl⟩
      | nil =>
        cases period with
        | none => simp at hwords
        | some p =>
          obtain ⟨rfl, rfl⟩ : word = p.chars ∧ words = [] := by simpa using hwords
          have hp : p.Valid := hperiod p rfl
          have hnone : color? p.chars = none := by
            refine Option.eq_none_iff_forall_ne_some.mpr fun name hname => ?_
            obtain ⟨hmem, hspells⟩ := color?_eq_some_iff.mp hname
            exact hp.not_spells hmem hspells
          rw [hnone]
          simp [period?_eq_some_iff.mpr ⟨p, hp, rfl, rfl⟩]

/-! ### The whole text -/

lemma takeGroup?_tail {l : Layout} (h : l.Valid) :
    takeGroup? l.tail = some (l.group.map String.ofList, ' ' :: unwords l.words) := by
  rw [h.tail_eq, Layout.groupChars, takeGroup?_eq_some_iff]
  cases hg : l.group with
  | none => exact Or.inl ⟨rfl, rfl, by simp⟩
  | some g =>
    obtain ⟨hne, hclose⟩ := h.group g hg
    exact Or.inr ⟨g, hne, hclose, rfl, by simp⟩

/-- What the reader finds after a type in the start of a text is a valid layout with that type. -/
lemma isOf_of_readAfterType? {t : LightType} {token cs : List Char} {c : Characteristic Decimal}
    (hspells : SpellsAll t.spelling token)
    (hname : LightType.ofToken? (String.ofList token) = some t)
    (h : readAfterType? t cs = some c) : ∃ l : Layout, l.IsOf (token ++ cs) ∧ l.Denotes id c := by
  rw [readAfterType?] at h
  split at h
  · rename_i group rest hgroup
    split at h
    · rename_i color colors d hread
      obtain rfl : _ = c := by simpa using h
      obtain ⟨words, period, hwords, hcolors, hperiod, rfl⟩ := readWords?_eq_some_iff.mp hread
      have hne : words ≠ [] := by
        rintro rfl
        cases hcolors
      have hall : ∀ word ∈ words, ∃ name ∈ colorNames, Spells name word := by
        intro word hword
        obtain ⟨name, -, hmem, hs⟩ := exists_of_mem_right hcolors hword
        exact ⟨name, hmem, hs⟩
      have hrest : unwords (words ++ (period.map WrittenPeriod.chars).toList) = rest := by
        rw [← hwords, unwords_splitAt]
      have hlayout : ∀ g : Option (List Char), (∀ x ∈ g, x ≠ [] ∧ ')' ∉ x) →
          (Layout.mk token g words period).Valid := fun g hg =>
        ⟨⟨t, hspells⟩, by rw [hname]; rfl, hg, hne, hall, hperiod⟩
      rcases takeGroup?_eq_some_iff.mp hgroup with ⟨rfl, rfl, -⟩ | ⟨g, hg, hclose, rfl, rfl⟩
      · have hvalid := hlayout none (by simp)
        refine ⟨⟨token, none, words, period⟩, ⟨hvalid, ?_⟩, ⟨hname, rfl, hcolors, rfl⟩⟩
        rw [Layout.chars_eq_append, hvalid.tail_eq, ← hrest]
        rfl
      · have hvalid := hlayout (some g) (by simpa using ⟨hg, hclose⟩)
        refine ⟨⟨token, some g, words, period⟩, ⟨hvalid, ?_⟩, ⟨hname, rfl, hcolors, rfl⟩⟩
        rw [Layout.chars_eq_append, hvalid.tail_eq, ← hrest]
        simp [Layout.groupChars, Layout.words]
    · simp at h
  · simp at h

/-- The reader reads what follows the type of a valid layout. -/
lemma readAfterType?_tail {l : Layout} {c : Characteristic Decimal} (h : l.Valid)
    (hc : l.Denotes id c) : readAfterType? c.type l.tail = some c := by
  have hread : readWords? l.words = some (c.colors, c.period) :=
    readWords?_eq_some_iff.mpr ⟨l.colors, l.period, rfl, hc.colors, h.period, hc.period⟩
  rw [readAfterType?, takeGroup?_tail h]
  simp only [splitAt_unwords h.words_ne h.words_ne_space, hread]
  obtain ⟨type, group, colors, period⟩ := c
  cases colors with
  | nil =>
    have := hc.colors
    simp only [List.forall₂_nil_left_iff] at this
    exact absurd this h.colors_ne
  | cons color colors => simp only [← hc.group]

/-- One type of the reader succeeds exactly on the texts that have a layout with that type. -/
lemma takeType?_bind_eq_some_iff {t : LightType} {cs : List Char} {c : Characteristic Decimal} :
    (takeType? t cs).bind (readAfterType? t) = some c ↔
      c.type = t ∧ ∃ l : Layout, l.IsOf cs ∧ l.Denotes id c := by
  rw [Option.bind_eq_some_iff]
  constructor
  · rintro ⟨rest, htake, hread⟩
    obtain ⟨token, rfl, hspells, hname⟩ := takeType?_eq_some_iff.mp htake
    obtain ⟨l, hl, hdenotes⟩ := isOf_of_readAfterType? hspells hname hread
    refine ⟨?_, l, hl, hdenotes⟩
    rw [readAfterType?] at hread
    split at hread
    · split at hread
      · obtain rfl : _ = c := by simpa using hread
        rfl
      · simp at hread
    · simp at hread
  · rintro ⟨rfl, l, hl, hdenotes⟩
    obtain ⟨t, hspells⟩ := hl.token
    have hname := hdenotes.type
    -- a text that matches a type names no other one
    rw [ofToken?_of_spellsAll hspells, Option.ite_none_left_eq_some, Option.some.injEq] at hname
    refine ⟨l.tail, takeType?_eq_some_iff.mpr ⟨l.token, ?_, ?_, hdenotes.type⟩,
      readAfterType?_tail hl.toValid hdenotes⟩
    · rw [← hl.chars_eq, Layout.chars_eq_append]
    · rw [← hname.2]
      exact hspells

/-- A layout denotes at most one characteristic. -/
lemma Layout.Denotes.unique {α : Type} {number : Decimal → α} {l : Layout}
    {c d : Characteristic α} (hc : l.Denotes number c) (hd : l.Denotes number d) : c = d := by
  have htype : c.type = d.type := Option.some.inj (hc.type.symm.trans hd.type)
  have hcolors : c.colors = d.colors := by
    have hunique : Relator.LeftUnique
        (fun (name : String) (word : List Char) => name ∈ colorNames ∧ Spells name word) := by
      intro name word name' h h'
      have heq := (color?_eq_some_iff.mpr h).symm.trans (color?_eq_some_iff.mpr h')
      exact Option.some.inj heq
    exact List.left_unique_forall₂' hunique hc.colors hd.colors
  have hgroup : c.group = d.group := hc.group.trans hd.group.symm
  have hperiod : c.period = d.period := hc.period.trans hd.period.symm
  cases c
  cases d
  simp only at htype hgroup hcolors hperiod
  rw [htype, hgroup, hcolors, hperiod]

lemma mem_all (t : LightType) : t ∈ LightType.all := by
  cases t <;> decide

/-- The reader gives what a layout of the text denotes.  Any type that succeeds gives the same,
since the layout is determined by the text. -/
lemma readSettled?_eq_some_iff {cs : List Char} {c : Characteristic Decimal} :
    readSettled? cs = some c ↔ ∃ l : Layout, l.IsOf cs ∧ l.Denotes id c := by
  constructor
  · intro h
    obtain ⟨t, -, ht⟩ := List.exists_of_findSome?_eq_some h
    exact (takeType?_bind_eq_some_iff.mp ht).2
  · rintro ⟨l, hl, hdenotes⟩
    have hc : (takeType? c.type cs).bind (readAfterType? c.type) = some c :=
      takeType?_bind_eq_some_iff.mpr ⟨rfl, l, hl, hdenotes⟩
    have hsome : (readSettled? cs).isSome := by
      rw [readSettled?, List.findSome?_isSome_iff]
      exact ⟨c.type, mem_all c.type, by rw [hc]; rfl⟩
    -- the type that succeeds first has a layout of the same text, so it is the same layout
    obtain ⟨d, hd⟩ := Option.isSome_iff_exists.mp hsome
    obtain ⟨t, -, ht⟩ := List.exists_of_findSome?_eq_some hd
    obtain ⟨-, l', hl', hdenotes'⟩ := takeType?_bind_eq_some_iff.mp ht
    rw [hl.unique hl'] at hdenotes
    rw [hd, hdenotes'.unique hdenotes]

/-- Words that each match a colour match a list of colours. -/
lemma exists_forall₂_colorNames {words : List (List Char)}
    (hall : ∀ word ∈ words, ∃ name ∈ colorNames, Spells name word) :
    ∃ names, List.Forall₂ (fun name word => name ∈ colorNames ∧ Spells name word) names words := by
  induction words with
  | nil => exact ⟨[], List.Forall₂.nil⟩
  | cons word words ih =>
    obtain ⟨name, hname, hspells⟩ := hall word (by simp)
    obtain ⟨names, hnames⟩ := ih fun w hw => hall w (by simp [hw])
    exact ⟨name :: names, List.Forall₂.cons ⟨hname, hspells⟩ hnames⟩

/-- A valid layout denotes a characteristic. -/
lemma Layout.Valid.exists_denotes {l : Layout} (h : l.Valid) {α : Type} (number : Decimal → α) :
    ∃ c : Characteristic α, l.Denotes number c := by
  obtain ⟨t, ht⟩ := Option.isSome_iff_exists.mp h.known
  obtain ⟨names, hnames⟩ := exists_forall₂_colorNames h.colors
  exact ⟨⟨t, l.group.map String.ofList, names, l.period.map fun p => number p.decimal⟩,
    ⟨ht, rfl, hnames, rfl⟩⟩

lemma Layout.Denotes.map {α β : Type} {number : Decimal → α} {l : Layout} {c : Characteristic α}
    (h : l.Denotes number c) (f : α → β) : l.Denotes (f ∘ number) (c.map f) := by
  refine ⟨h.type, h.group, h.colors, ?_⟩
  rw [Characteristic.map, h.period, Option.map_map]
  rfl

/-- The reader reads a layout of the settled text and then rounds the period. -/
lemma read?_of_isOf {α : Type} [Scalar α] {text : String} {l : Layout}
    (hl : l.IsOf (settle text.toList)) {c : Characteristic Decimal} (hc : l.Denotes id c) :
    (read? text : Option (Characteristic α)) = some (c.map Scalar.ofDecimal) := by
  rw [read?, readExact?, readSettled?_eq_some_iff.mpr ⟨l, hl, hc⟩]
  rfl

/-- What is read has a colour. -/
lemma colors_ne_nil_of_read? {α : Type} [Scalar α] {text : String} {c : Characteristic α}
    (h : read? text = some c) : c.colors ≠ [] := by
  obtain ⟨d, hd, rfl⟩ := Option.map_eq_some_iff.mp h
  obtain ⟨l, hl, hdenotes⟩ := readSettled?_eq_some_iff.mp hd
  intro hnil
  have hcolors : List.Forall₂ (fun name word => name ∈ colorNames ∧ Spells name word) [] l.colors :=
    hnil ▸ hdenotes.colors
  exact hl.colors_ne (List.forall₂_nil_left_iff.mp hcolors)

/-- A layout whose words have no blanks is a settled text. -/
lemma Layout.settle_chars {l : Layout} (hwords : l.words ≠ [])
    (h : ∀ w ∈ (l.token ++ l.groupChars) :: l.words, w ≠ [] ∧ ∀ c ∈ w, isBlank c = false) :
    settle l.chars = l.chars := by
  have hchars : l.chars = unwords ((l.token ++ l.groupChars) :: l.words) := by
    rw [unwords_cons hwords, Layout.chars, flatMap_space hwords]
  rw [hchars, settle_unwords h]

namespace WrittenPeriod

lemma value_nonneg (p : WrittenPeriod) : 0 ≤ p.value :=
  p.decimal.toRat_nonneg.trans_eq p.toRat_decimal

/-- A written number is read as the nearest double. -/
lemma toFloat_decimal (p : WrittenPeriod) : p.decimal.toFloat = Double.rounded p.value := by
  rw [p.decimal.toFloat_eq_rounded, p.toRat_decimal]

end WrittenPeriod

/-- **A text is read as a characteristic exactly when it has a valid layout.**  It has at most one,
and the characteristic is the one that this layout denotes.  Its period is the number that stands in
the text, place by place: this number itself if times are exact, and the double nearest to it if
they are doubles. -/
theorem read?_iff_layout {α : Type} [Scalar α] (text : String) :
    ((∃ c : Characteristic α, read? text = some c) ↔
      ∃ l : Layout, l.IsOf (settle text.toList)) ∧
    (∀ l l' : Layout, l.IsOf (settle text.toList) → l'.IsOf (settle text.toList) → l = l') ∧
    ∀ l : Layout, l.IsOf (settle text.toList) →
      (∃ c : Characteristic α, read? text = some c ∧ l.Denotes Scalar.ofDecimal c) ∧
      ∀ p ∈ l.period, p.decimal.toRat = p.value ∧
        (Scalar.ofDecimal p.decimal : Float) = Double.rounded p.value := by
  have hread : ∀ l : Layout, l.IsOf (settle text.toList) →
      ∃ c : Characteristic α, read? text = some c ∧ l.Denotes Scalar.ofDecimal c := by
    intro l hl
    obtain ⟨d, hd⟩ := hl.exists_denotes id
    refine ⟨d.map Scalar.ofDecimal, ?_, hd.map Scalar.ofDecimal⟩
    rw [read?, readExact?, readSettled?_eq_some_iff.mpr ⟨l, hl, hd⟩]
    rfl
  -- reading exactly and rounding the period afterwards are the two steps of reading
  refine ⟨⟨?_, ?_⟩, fun l l' hl hl' => hl.unique hl', fun l hl =>
    ⟨hread l hl, fun p _ => ⟨p.toRat_decimal, p.toFloat_decimal⟩⟩⟩
  · rintro ⟨c, hc⟩
    obtain ⟨d, hd, -⟩ := Option.map_eq_some_iff.mp hc
    obtain ⟨l, hl, -⟩ := readSettled?_eq_some_iff.mp hd
    exact ⟨l, hl⟩
  · rintro ⟨l, hl⟩
    obtain ⟨c, hc, -⟩ := hread l hl
    exact ⟨c, hc⟩

example : (read? "fl(2+1) w AM  .5S" : Option (Characteristic Rat)) =
    some ⟨.flashing, some "2+1", ["W", "Am"], some (1 / 2)⟩ := by decide +kernel

end Seamark.Characteristic
