import Mathlib
import Seamark.Proofs.Catalog.Defects

/-!
# Which entries are kept

Every entry of a catalogue is kept, passed over or refused, and this is told by the entry alone: one
that is no map or lacks something that a placed light must have is refused (`Offends`), one without
a position is passed over with a warning, and any other one gives one light that carries its fields.
The lights and the warnings stand in the order of the document, and the first entry that is refused
ends the reading (`read_outcome`).  Besides, an entry may hold an integer that is too long to be
written, or too large for a double (`IsOutsized`), which is told without the place of the entry.
-/

namespace Seamark

namespace Value

/-- A list, which may hold itself. -/
def isList : Value → Bool
  | list _ | loop _ (list _) => true
  | _ => false

/-- A value that can be written as a text. -/
def Writable (v : Value) : Prop := ∃ s, v.toText = .ok s

/-- A value that can be taken as a double. -/
def Numeric (v : Value) : Prop := ∃ x, v.toFloat = .ok x

lemma toText_cases (v : Value) : (∃ s, v.toText = .ok s) ∨ v.toText = .error .tooManyDigits := by
  obtain ⟨s, hs, -⟩ | ⟨e, more, he, hmore⟩ := (failsFirst_toText v).ok_or_error
  · exact Or.inl ⟨s, hs⟩
  · have hmem : e ∈ v.textDefects := hmore ▸ List.mem_cons_self ..
    obtain ⟨n, -, hn⟩ := List.mem_flatMap.mp hmem
    split_ifs at hn
    · obtain rfl := List.mem_singleton.mp hn
      exact Or.inr he
    · cases hn

lemma toFloat_cases {v : Value} (hv : v.isNumber = true) :
    (∃ x, v.toFloat = .ok x) ∨ v.toFloat = .error .numberTooLarge := by
  cases v with
  | int n =>
    rw [toFloat]
    cases floatOfInt? n with
    | none => exact Or.inr rfl
    | some x => exact Or.inl ⟨x, rfl⟩
  | float x => exact Or.inl ⟨x, rfl⟩
  | _ => cases hv

lemma not_writable {v : Value} {e : ConversionError} (h : v.toText = .error e) : ¬ v.Writable := by
  rintro ⟨s, hs⟩
  cases h.symm.trans hs

lemma not_numeric {v : Value} {e : ConversionError} (h : v.toFloat = .error e) : ¬ v.Numeric := by
  rintro ⟨x, hx⟩
  cases h.symm.trans hx

end Value

namespace Catalog

open Value

/-! ### What reading comes to -/

/-- An error that names the entry it is about. -/
def NamesEntry (entry : ℕ) : CatalogError → Prop
  | .notAMapping n | .missing n _ | .arcWithoutBounds n _ => n = entry
  | _ => False

/-- An error about an integer that has too many digits or is beyond every double. -/
def IsAboutSize (e : CatalogError) : Prop :=
  e = .conversion .tooManyDigits ∨ e = .conversion .numberTooLarge

/-- What reading a part of an entry comes to: a result, a refusal that names the entry, or an
integer that is too long or too large. -/
inductive Reads {β : Type} (entry : ℕ) (result : Except CatalogError β) (Kept : β → Prop)
    (refused outsized : Prop) : Prop where
  /-- There is a result, and nothing is wrong. -/
  | kept (b : β) (hresult : result = .ok b) (hkept : Kept b) (hrefused : ¬ refused)
    (houtsized : ¬ outsized)
  /-- Something is refused. -/
  | refused (e : CatalogError) (hresult : result = .error e) (hnames : NamesEntry entry e)
    (hrefused : refused)
  /-- An integer cannot be converted. -/
  | outsized (e : CatalogError) (hresult : result = .error e) (hsize : IsAboutSize e)
    (houtsized : outsized)

/-- The text of such an error starts with the position. -/
lemma message_of_namesEntry {entry : ℕ} {e : CatalogError} (h : NamesEntry entry e) :
    ∃ more, e.message = "Catalog entry " ++ toString entry ++ " " ++ more := by
  cases e with
  | notAMapping n =>
    obtain rfl : n = entry := h
    have hmessage : (CatalogError.notAMapping n).message =
        "Catalog entry " ++ toString n ++ (" " ++ "is not a mapping") := rfl
    exact ⟨"is not a mapping", by rw [hmessage]; simp only [String.append_assoc]⟩
  | missing n key =>
    obtain rfl : n = entry := h
    have hmessage : (CatalogError.missing n key).message =
        "Catalog entry " ++ toString n ++ (" " ++ "is missing '") ++ key ++ "'" := rfl
    exact ⟨"is missing '" ++ key ++ "'", by rw [hmessage]; simp only [String.append_assoc]⟩
  | arcWithoutBounds n name =>
    obtain rfl : n = entry := h
    have hmessage : (CatalogError.arcWithoutBounds n name).message = "Catalog entry " ++ toString n
        ++ (" " ++ "(") ++ name ++ ") has an arc without start/end" := rfl
    refine ⟨"(" ++ name ++ ") has an arc without start/end", ?_⟩
    rw [hmessage]
    simp only [String.append_assoc]
  | _ => cases h

namespace Reads

variable {β γ : Type} {entry : ℕ} {x : Except CatalogError β} {f : β → Except CatalogError γ}
  {Kept : β → Prop} {Kept' : γ → Prop} {refused outsized refused' outsized' : Prop}

lemma pure {b : β} (h : Kept b) : Reads entry (.ok b) Kept False False :=
  .kept b rfl h not_false not_false

lemma throw {e : CatalogError} (h : NamesEntry entry e) :
    Reads entry (.error e : Except CatalogError β) Kept True False :=
  .refused e rfl h trivial

/-- Of two things that are read one after the other, either may be refused or hold an integer that
is too long. -/
lemma bind (hx : Reads entry x Kept refused outsized)
    (hf : ∀ b, Kept b → Reads entry (f b) Kept' refused' outsized') :
    Reads entry (x >>= f) Kept' (refused ∨ refused') (outsized ∨ outsized') := by
  cases hx with
  | kept b hb hkept hr ho =>
    rw [hb]
    cases hf b hkept with
    | kept c hc hkept' hr' ho' =>
      exact .kept c hc hkept' (not_or_intro hr hr') (not_or_intro ho ho')
    | refused e he hnames hr' => exact .refused e he hnames (Or.inr hr')
    | outsized e he hsize ho' => exact .outsized e he hsize (Or.inr ho')
  | refused e he hnames hr => exact .refused e (by rw [he]; rfl) hnames (Or.inl hr)
  | outsized e he hsize ho => exact .outsized e (by rw [he]; rfl) hsize (Or.inl ho)

lemma congr (hx : Reads entry x Kept refused outsized) (hr : refused ↔ refused')
    (ho : outsized ↔ outsized') : Reads entry x Kept refused' outsized' := by
  rwa [← propext hr, ← propext ho]

end Reads

/-- A text is not written only if an integer in it is too long. -/
lemma reads_text (entry : ℕ) (v : Value) :
    Reads entry (text v) (fun s => v.toText = .ok s) False (¬ v.Writable) := by
  rw [text_eq]
  rcases toText_cases v with ⟨s, hs⟩ | hlong
  · exact .kept s (by rw [hs]; rfl) hs not_false (not_not.mpr ⟨s, hs⟩)
  · exact .outsized _ (by rw [hlong]; rfl) (Or.inl rfl) (not_writable hlong)

/-- A number is no double only if it is an integer that is too large. -/
lemma reads_number (entry : ℕ) {v : Value} (hv : v.isNumber = true) :
    Reads entry (number v) (fun x => v.toFloat = .ok x) False (¬ v.Numeric) := by
  rw [number_eq]
  rcases toFloat_cases hv with ⟨x, hx⟩ | hlarge
  · exact .kept x (by rw [hx]; rfl) hx not_false (not_not.mpr ⟨x, hx⟩)
  · exact .outsized _ (by rw [hlarge]; rfl) (Or.inr rfl) (not_numeric hlarge)

/-! ### Arcs -/

/-- The arcs of an entry. -/
def arcsOf (fields : List (Value × Value)) : List Value := (field fields "arcs").elements?.getD []

/-- The colour of an arc, white if none is given. -/
def colorOf (bounds : List (Value × Value)) : Value := (field? bounds "color").getD (.text "W")

/-- A map with a start and an end. -/
def HasBounds (arc : Value) : Prop :=
  ∃ bounds start finish, arc.entries? = some bounds ∧ field? bounds "start" = some start ∧
    field? bounds "end" = some finish

/-- The colour of an arc cannot be written. -/
def HasLongColor (arc : Value) : Prop :=
  ∃ bounds, arc.entries? = some bounds ∧ ¬ (colorOf bounds).Writable

/-- An arc has the bounds and the colour of a map. -/
def CarriesArc (v : Value) (arc : Arc) : Prop :=
  ∃ bounds start finish, v.entries? = some bounds ∧
    field? bounds "start" = some start ∧ start.toFloat = .ok arc.start ∧
    field? bounds "end" = some finish ∧ finish.toFloat = .ok arc.finish ∧
    (colorOf bounds).toText = .ok arc.color

/-- The bounds of an arc, where they are given, can be taken as doubles. -/
def HasNumericBounds (arc : Value) : Prop :=
  ∀ bounds, arc.entries? = some bounds → ∀ key ∈ ["start", "end"],
    ∀ bound, field? bounds key = some bound → bound.Numeric

/-- The arcs of an entry are a list or are not given, and their bounds are numeric. -/
structure HasNumericArcs (fields : List (Value × Value)) : Prop where
  /-- The arcs are a list, or are not given. -/
  isList : field fields "arcs" = .null ∨ (field fields "arcs").isList = true
  /-- The bounds of the arcs are numeric. -/
  numeric : ∀ arc ∈ arcsOf fields, HasNumericBounds arc

lemma arcValues_eq {fields : List (Value × Value)} (h : HasNumericArcs fields) :
    arcValues fields = .ok (arcsOf fields) := by
  rw [arcValues, arcsOf, given?]
  rcases h.isList with hnull | hlist
  · rw [hnull]
    rfl
  · cases hv : field fields "arcs" with
    | list items => cases items <;> rfl
    | loop n v =>
      rw [hv] at hlist
      cases v with
      | list items => cases items <;> rfl
      | _ => cases hlist
    | _ =>
      rw [hv] at hlist
      cases hlist

section

variable {entry : ℕ} {name arc : Value}

lemma readArc_of_not_hasBounds (h : ¬ HasBounds arc) :
    readArc entry name arc = (text name >>= fun s => .error (.arcWithoutBounds entry s)) := by
  rw [readArc]
  split
  · next start finish hstart hfinish =>
      cases hentries : arc.entries? with
      | none =>
        rw [hentries] at hstart
        cases hstart
      | some bounds =>
        rw [hentries] at hstart hfinish
        exact absurd ⟨bounds, start, finish, hentries, hstart, hfinish⟩ h
  · rfl

lemma readArc_of_bounds {bounds : List (Value × Value)} {start finish : Value} {x y : Float}
    (hentries : arc.entries? = some bounds) (hstart : field? bounds "start" = some start)
    (hx : start.toFloat = .ok x) (hfinish : field? bounds "end" = some finish)
    (hy : finish.toFloat = .ok y) :
    readArc entry name arc = (text (colorOf bounds) >>= fun color => .ok ⟨x, y, color⟩) := by
  simp only [readArc, hentries, Option.getD_some, hstart, hfinish, number_eq, hx, hy]
  rfl

/-- What keeps an arc from being written: its colour, or the name of the entry that is told when the
arc is refused. -/
def HoldsLongText (name arc : Value) : Prop :=
  ¬ HasBounds arc ∧ ¬ name.Writable ∨ HasLongColor arc

/-- An arc is refused if it has no bounds. -/
lemma reads_readArc (entry : ℕ) (name : Value) (harc : HasNumericBounds arc) :
    Reads entry (readArc entry name arc) (CarriesArc arc) (¬ HasBounds arc)
      (HoldsLongText name arc) := by
  by_cases h : HasBounds arc
  · obtain ⟨bounds, start, finish, hentries, hstart, hfinish⟩ := id h
    obtain ⟨x, hx⟩ := harc bounds hentries "start" (by simp) start hstart
    obtain ⟨y, hy⟩ := harc bounds hentries "end" (by simp) finish hfinish
    have hlong : HasLongColor arc ↔ ¬ (colorOf bounds).Writable := by
      simp only [HasLongColor, hentries, Option.some.injEq, exists_eq_left']
    rw [readArc_of_bounds hentries hstart hx hfinish hy]
    refine ((reads_text entry (colorOf bounds)).bind fun color hcolor =>
      .pure ⟨bounds, start, finish, hentries, hstart, hx, hfinish, hy, hcolor⟩).congr ?_ ?_
    · simp [h]
    · simp [HoldsLongText, h, hlong]
  · rw [readArc_of_not_hasBounds h]
    cases reads_text entry name with
    | kept s hs => exact .refused (.arcWithoutBounds entry s) (by rw [hs]; rfl) rfl h
    | refused e _ _ hnone => exact hnone.elim
    | outsized e he hsize hlong => exact .outsized e (by rw [he]; rfl) hsize (Or.inl ⟨h, hlong⟩)

/-- The arcs of an entry are read one after the other, up to the first that is refused. -/
lemma reads_readArcs (entry : ℕ) (name : Value) {arcs : List Value}
    (harcs : ∀ arc ∈ arcs, HasNumericBounds arc) :
    Reads entry (readArcs entry name arcs) (List.Forall₂ CarriesArc arcs)
      (∃ arc ∈ arcs, ¬ HasBounds arc) (∃ arc ∈ arcs, HoldsLongText name arc) := by
  induction arcs with
  | nil => exact (Reads.pure .nil).congr (by simp) (by simp)
  | cons arc arcs ih =>
    obtain ⟨hfirst, hothers⟩ := List.forall_mem_cons.mp harcs
    exact ((reads_readArc entry name hfirst).bind fun a ha =>
      (ih hothers).bind fun as has => .pure (.cons ha has)).congr (by simp) (by simp)

end

/-! ### Entries -/

/-- A placed entry lacks what a light must have: a name, a code, and bounds of its arcs. -/
def Lacks (fields : List (Value × Value)) : Prop :=
  (field fields "name").isNothing = true ∨ (field fields "code").isNothing = true ∨
    ∃ arc ∈ arcsOf fields, ¬ HasBounds arc

/-- A placed entry holds an integer that is too long or too large. -/
def HoldsOutsized (fields : List (Value × Value)) : Prop :=
  (∃ key ∈ ["name", "code"], ¬ (field fields key).Writable) ∨
    (∃ key ∈ ["lat", "lon"], ¬ (field fields key).Numeric) ∨
    ∃ arc ∈ arcsOf fields, HasLongColor arc

/-- A light has the fields of an entry. -/
structure Carries (fields : List (Value × Value)) (light : Lighthouse) : Prop where
  /-- The name. -/
  name : (field fields "name").toText = .ok light.name
  /-- The latitude. -/
  lat : (field fields "lat").toFloat = .ok light.lat
  /-- The longitude. -/
  lon : (field fields "lon").toFloat = .ok light.lon
  /-- The characteristic. -/
  code : (field fields "code").toText = .ok light.code
  /-- The range as it is given. -/
  range : light.range = field fields "range"
  /-- The arcs in order. -/
  arcs : List.Forall₂ CarriesArc (arcsOf fields) light.arcs

/-- The warning for an entry at a position: it has the name, or the position if there is none. -/
def IsWarning (item : List (Value × Value) × ℕ) (warning : String) : Prop :=
  ∃ name, warning = "[CATALOG] Warning: skipping " ++ name ++ ": no position" ∧
    match field? item.1 "name" with
    | none => name = "entry " ++ toString item.2
    | some v => v.toText = .ok name

/-- A placed entry gives a light with its fields, unless it lacks something. -/
lemma reads_readEntry (entry : ℕ) {fields : List (Value × Value)}
    (hplaced : isPlaced fields = true) (harcs : HasNumericArcs fields) :
    Reads entry (readEntry entry fields) (Carries fields) (Lacks fields)
      (HoldsOutsized fields) := by
  obtain ⟨hlat, hlon⟩ :
      (field fields "lat").isNumber = true ∧ (field fields "lon").isNumber = true := by
    rwa [isPlaced, Bool.and_eq_true] at hplaced
  rw [readEntry]
  dsimp only
  by_cases hname : (field fields "name").isNothing = true
  · rw [if_pos hname]
    exact .refused _ rfl rfl (Or.inl hname)
  by_cases hcode : (field fields "code").isNothing = true
  · rw [if_neg hname, if_pos hcode]
    exact .refused _ rfl rfl (Or.inr (Or.inl hcode))
  rw [if_neg hname, if_neg hcode, arcValues_eq harcs]
  refine ((reads_readArcs entry (field fields "name") harcs.numeric).bind fun arcs harcs' =>
    (reads_text entry (field fields "name")).bind fun name hname' =>
      (reads_number entry hlat).bind fun lat hlat' =>
        (reads_number entry hlon).bind fun lon hlon' =>
          (reads_text entry (field fields "code")).bind fun code hcode' =>
            .pure ⟨hname', hlat', hlon', hcode', rfl, harcs'⟩).congr ?_ ?_
  · simp [Lacks, hname, hcode]
  · constructor
    · rintro (⟨arc, harc, ⟨-, hlong⟩ | hlong⟩ | hlong | hlarge | hlarge | hlong | hfalse)
      · exact Or.inl ⟨"name", by simp, hlong⟩
      · exact Or.inr (Or.inr ⟨arc, harc, hlong⟩)
      · exact Or.inl ⟨"name", by simp, hlong⟩
      · exact Or.inr (Or.inl ⟨"lat", by simp, hlarge⟩)
      · exact Or.inr (Or.inl ⟨"lon", by simp, hlarge⟩)
      · exact Or.inl ⟨"code", by simp, hlong⟩
      · exact hfalse.elim
    · rintro (⟨key, hkey, hlong⟩ | ⟨key, hkey, hlarge⟩ | ⟨arc, harc, hlong⟩)
      · simp only [List.mem_cons, List.not_mem_nil, or_false] at hkey
        rcases hkey with rfl | rfl <;> simp [hlong]
      · simp only [List.mem_cons, List.not_mem_nil, or_false] at hkey
        rcases hkey with rfl | rfl <;> simp [hlarge]
      · exact Or.inl ⟨arc, harc, Or.inr hlong⟩

/-- The name of an entry, where it has one, cannot be written. -/
def HasLongName (fields : List (Value × Value)) : Prop :=
  ∃ name, field? fields "name" = some name ∧ ¬ name.Writable

/-- An entry without a position gives a warning. -/
lemma reads_skipWarning (entry : ℕ) (fields : List (Value × Value)) :
    Reads entry (skipWarning entry fields) (IsWarning (fields, entry)) False
      (HasLongName fields) := by
  rw [skipWarning, HasLongName]
  cases hname : field? fields "name" with
  | none =>
    refine (Reads.pure ⟨"entry " ++ toString entry, rfl, ?_⟩).congr Iff.rfl (by simp)
    rw [hname]
  | some name =>
    refine ((reads_text entry name).bind fun s hs => .pure ⟨s, rfl, ?_⟩).congr (by simp) (by simp)
    rw [hname]
    exact hs

/-! ### Catalogues -/

/-- The entry of a catalogue is refused: it is no map, or it is placed and lacks something. -/
def Offends (v : Value) : Prop :=
  v.entries? = none ∨ ∃ fields, v.entries? = some fields ∧ isPlaced fields = true ∧ Lacks fields

/-- The entry of a catalogue holds an integer that is too long or too large. -/
def IsOutsized (v : Value) : Prop :=
  ∃ fields, v.entries? = some fields ∧
    (isPlaced fields = true ∧ HoldsOutsized fields ∨ isPlaced fields = false ∧ HasLongName fields)

/-- The arcs of the entry of a catalogue are numeric, if it is placed. -/
def IsNumericEntry (v : Value) : Prop :=
  ∀ fields, v.entries? = some fields → isPlaced fields = true → HasNumericArcs fields

/-- The document is a list of some entries, or a map with such a list of lights. -/
def HoldsEntries (document : Value) (items : List Value) : Prop :=
  (document.isList = true ∧ document.elements? = some items) ∨
    ∃ fields, document.entries? = some fields ∧ (field fields "lighthouses").isList = true ∧
      (field fields "lighthouses").elements? = some items

/-- The placed entries, in order. -/
def placed (items : List Value) : List (List (Value × Value)) :=
  items.filterMap fun v => v.entries?.filter isPlaced

/-- The entries that are maps without a position, in order, each with its place. -/
def unplaced (start : ℕ) (items : List Value) : List (List (Value × Value) × ℕ) :=
  (items.zipIdx start).filterMap fun item =>
    (item.1.entries?.filter fun fields => !isPlaced fields).map (·, item.2)

lemma placed_cons (v : Value) (items : List Value) :
    placed (v :: items) = placed [v] ++ placed items :=
  List.filterMap_append (l := [v])

lemma unplaced_cons (start : ℕ) (v : Value) (items : List Value) :
    unplaced start (v :: items) = unplaced start [v] ++ unplaced (start + 1) items := by
  rw [unplaced, List.zipIdx_cons]
  exact List.filterMap_append (l := [(v, start)])

/-- What one entry adds to the warnings and to the lights. -/
def readItem (entry : ℕ) (v : Value) : Except CatalogError (List String × List Lighthouse) :=
  match v.entries? with
  | none => .error (.notAMapping entry)
  | some fields =>
    if isPlaced fields then readEntry entry fields >>= fun light => .ok ([], [light])
    else skipWarning entry fields >>= fun warning => .ok ([warning], [])

lemma readFrom_cons (entry : ℕ) (v : Value) (rest : List Value) :
    readFrom entry (v :: rest) =
      match readItem entry v with
      | .error e => ⟨[], .error e⟩
      | .ok (warnings, lights) => ⟨warnings ++ (readFrom (entry + 1) rest).warnings,
          (readFrom (entry + 1) rest).result.map (lights ++ ·)⟩ := by
  rw [readFrom, readItem]
  cases v.entries? with
  | none => rfl
  | some fields =>
    dsimp only
    split_ifs
    · cases readEntry entry fields <;> rfl
    · cases skipWarning entry fields with
      | error e => rfl
      | ok warning =>
        simp only [bind, Except.bind, List.nil_append, List.cons_append]
        cases (readFrom (entry + 1) rest).result <;> rfl

/-- An entry is refused if it offends, and otherwise gives one light or one warning. -/
lemma reads_readItem (entry : ℕ) {v : Value} (hv : IsNumericEntry v) :
    Reads entry (readItem entry v)
      (fun added => List.Forall₂ IsWarning (unplaced entry [v]) added.1 ∧
        List.Forall₂ Carries (placed [v]) added.2) (Offends v) (IsOutsized v) := by
  rw [readItem, Offends, IsOutsized]
  cases hentries : v.entries? with
  | none => exact (Reads.throw (e := .notAMapping entry) rfl).congr (by simp) (by simp)
  | some fields =>
    dsimp only
    by_cases hplaced : isPlaced fields = true
    · rw [if_pos hplaced]
      refine ((reads_readEntry entry hplaced (hv fields hentries hplaced)).bind fun light hlight =>
        .pure ⟨?_, ?_⟩).congr (by simp [hplaced]) (by simp [hplaced])
      · simp [unplaced, hentries, hplaced]
      · have hkept : placed [v] = [fields] := by
          simp [placed, hentries, Option.filter, hplaced]
        rw [hkept]
        exact .cons hlight .nil
    · rw [if_neg hplaced]
      refine ((reads_skipWarning entry fields).bind fun warning hwarning =>
        .pure ⟨?_, ?_⟩).congr (by simp [hplaced]) (by simp [hplaced])
      · simpa [unplaced, hentries, hplaced] using hwarning
      · simp [placed, hentries, hplaced]

section

variable {v : Value} {items : List Value}

/-- The first entry with which something is wrong ends the reading. -/
lemma exists_readFrom_of_wrong (start : ℕ) (rest : List Value) (hv : IsNumericEntry v)
    (hwrong : Offends v ∨ IsOutsized v) :
    ∃ e, readFrom start (v :: rest) = ⟨[], .error e⟩ ∧
      (Offends v ∧ NamesEntry start e ∨ IsOutsized v ∧ IsAboutSize e) := by
  rw [readFrom_cons]
  cases reads_readItem start hv with
  | kept added hadded hkept hr ho => exact absurd hwrong (not_or_intro hr ho)
  | refused e he hnames hr => exact ⟨e, by rw [he], Or.inl ⟨hr, hnames⟩⟩
  | outsized e he hsize ho => exact ⟨e, by rw [he], Or.inr ⟨ho, hsize⟩⟩

/-- Entries with which nothing is wrong give their warnings and their lights, and the reading goes
on. -/
lemma exists_readFrom_of_right (start : ℕ) (rest : List Value)
    (hnumeric : ∀ v ∈ items, IsNumericEntry v)
    (hright : ∀ v ∈ items, ¬ Offends v ∧ ¬ IsOutsized v) :
    ∃ warnings lights, List.Forall₂ IsWarning (unplaced start items) warnings ∧
      List.Forall₂ Carries (placed items) lights ∧
      readFrom start (items ++ rest) =
        ⟨warnings ++ (readFrom (start + items.length) rest).warnings,
          (readFrom (start + items.length) rest).result.map (lights ++ ·)⟩ := by
  induction items generalizing start with
  | nil =>
    refine ⟨[], [], .nil, .nil, ?_⟩
    rw [List.nil_append, List.length_nil, Nat.add_zero]
    cases readFrom start rest with
    | mk warnings result => cases result <;> rfl
  | cons v items ih =>
    obtain ⟨hv, hothers⟩ := List.forall_mem_cons.mp hnumeric
    obtain ⟨hright, hrights⟩ := List.forall_mem_cons.mp hright
    obtain ⟨warnings, lights, hwarnings, hlights, hread⟩ := ih (start + 1) hothers hrights
    cases reads_readItem start hv with
    | kept added hadded hkept hr ho =>
      refine ⟨added.1 ++ warnings, added.2 ++ lights, ?_, ?_, ?_⟩
      · rw [unplaced_cons]
        exact List.rel_append hkept.1 hwarnings
      · rw [placed_cons]
        exact List.rel_append hkept.2 hlights
      · have hlength : start + (v :: items).length = start + 1 + items.length := by
          rw [List.length_cons]
          omega
        rw [List.cons_append, readFrom_cons, hadded, hread, hlength, List.append_assoc]
        cases (readFrom (start + 1 + items.length) rest).result with
        | error e => rfl
        | ok others => simp [Except.map]
    | refused e he hnames hr => exact absurd hr hright.1
    | outsized e he hsize ho => exact absurd ho hright.2

lemma elements?_given?_getD {v : Value} (hlist : v.isList = true) :
    (v.given?.getD (.list [])).elements? = v.elements? := by
  rw [given?]
  cases v with
  | list items => cases items <;> rfl
  | loop n v =>
    cases v with
    | list items => cases items <;> rfl
    | _ => cases hlist
  | _ => cases hlist

lemma entriesValue_of_isList {document : Value} (hlist : document.isList = true) :
    entriesValue document = document.given?.getD (.list []) := by
  have hmap : document.entries? = none := by
    cases document with
    | list items => rfl
    | loop n v => cases v <;> first | rfl | cases hlist
    | _ => cases hlist
  rw [entriesValue, given?]
  by_cases hnothing : document.isNothing = true
  · rw [if_pos hnothing]
    rfl
  · rw [if_neg hnothing]
    dsimp only
    rw [hmap]
    rfl

/-- A map with entries is not taken for nothing. -/
lemma isNothing_of_entries? {document : Value} {fields : List (Value × Value)}
    (hfields : document.entries? = some fields) (hsome : fields ≠ []) :
    document.isNothing = false := by
  cases document with
  | map entries =>
    obtain rfl := Option.some.inj hfields
    rw [isNothing, List.isEmpty_eq_false_iff]
    exact hsome
  | loop n v =>
    cases v with
    | map entries =>
      rw [isNothing, isNothing, List.isEmpty_eq_false_iff]
      rintro rfl
      exact hsome (Option.some.inj hfields).symm
    | _ => cases hfields
  | _ => cases hfields

/-- The entries of a document are read from the first one on. -/
lemma read_of_holdsEntries {document : Value} (h : HoldsEntries document items) :
    read document = readFrom 0 items := by
  have helements : (entriesValue document).elements? = some items := by
    rcases h with ⟨hlist, hitems⟩ | ⟨fields, hfields, hlist, hitems⟩
    · rw [entriesValue_of_isList hlist, elements?_given?_getD hlist, hitems]
    · have hsome : fields ≠ [] := by
        rintro rfl
        cases hlist
      have hgiven : document.given? = some document := by
        rw [given?, isNothing_of_entries? hfields hsome]
        rfl
      rw [entriesValue, hgiven]
      dsimp only
      rw [hfields]
      dsimp only
      rw [elements?_given?_getD hlist, hitems]
  rw [read, helements]

section

variable {document : Value} (hitems : HoldsEntries document items)
  (hnumeric : ∀ v ∈ items, IsNumericEntry v)
include hitems hnumeric

/-- A document with which nothing is wrong gives the lights of its placed entries. -/
lemma exists_read_of_right (hright : ∀ v ∈ items, ¬ Offends v ∧ ¬ IsOutsized v) :
    ∃ warnings lights, read document = ⟨warnings, .ok lights⟩ ∧
      List.Forall₂ IsWarning (unplaced 0 items) warnings ∧
      List.Forall₂ Carries (placed items) lights := by
  obtain ⟨warnings, lights, hwarnings, hlights, hread⟩ :=
    exists_readFrom_of_right 0 [] hnumeric hright
  refine ⟨warnings, lights, ?_, hwarnings, hlights⟩
  rw [read_of_holdsEntries hitems, ← List.append_nil items, hread, readFrom]
  simp [Except.map]

/-- A document is read up to the first entry with which something is wrong. -/
lemma exists_read_of_wrong {before after : List Value} (heq : items = before ++ v :: after)
    (hbefore : ∀ u ∈ before, ¬ Offends u ∧ ¬ IsOutsized u) (hv : Offends v ∨ IsOutsized v) :
    ∃ warnings e, read document = ⟨warnings, .error e⟩ ∧
      List.Forall₂ IsWarning (unplaced 0 before) warnings ∧
      (Offends v ∧ NamesEntry before.length e ∨ IsOutsized v ∧ IsAboutSize e) := by
  subst heq
  obtain ⟨warnings, lights, hwarnings, -, hread⟩ := exists_readFrom_of_right 0 (v :: after)
    (fun u hu => hnumeric u (List.mem_append_left _ hu)) hbefore
  obtain ⟨e, he, hcause⟩ := exists_readFrom_of_wrong (0 + before.length) after
    (hnumeric v (by simp)) hv
  rw [Nat.zero_add] at he hcause hread
  refine ⟨warnings, e, ?_, hwarnings, hcause⟩
  rw [read_of_holdsEntries hitems, hread, he, List.append_nil]
  rfl

end

end

/-- **Which entries are kept, passed over and refused.**  Reading the entries of a document fails
exactly if one of them offends, or holds an integer that is too long or too large.  The error is
about the first such entry and names its place, unless it is about such an integer.  Otherwise each
placed entry gives one light with its fields, in order.  In either case the entries without a
position, as far as they are read, give one warning each, in order. -/
theorem read_outcome {document : Value} {items : List Value} (hitems : HoldsEntries document items)
    (hnumeric : ∀ v ∈ items, IsNumericEntry v) :
    ((∃ e, (read document).result = .error e) ↔ ∃ v ∈ items, Offends v ∨ IsOutsized v) ∧
    (∀ before v after, items = before ++ v :: after →
      (∀ u ∈ before, ¬ Offends u ∧ ¬ IsOutsized u) → Offends v ∨ IsOutsized v →
      ∃ warnings e, read document = ⟨warnings, .error e⟩ ∧
        List.Forall₂ IsWarning (unplaced 0 before) warnings ∧
        (Offends v ∧ NamesEntry before.length e ∧
            (∃ more, e.message = "Catalog entry " ++ toString before.length ++ " " ++ more) ∨
          IsOutsized v ∧ IsAboutSize e)) ∧
    ((∀ v ∈ items, ¬ Offends v ∧ ¬ IsOutsized v) →
      ∃ warnings lights, read document = ⟨warnings, .ok lights⟩ ∧
        List.Forall₂ IsWarning (unplaced 0 items) warnings ∧
        List.Forall₂ Carries (placed items) lights) := by
  refine ⟨⟨?_, ?_⟩, ?_, exists_read_of_right hitems hnumeric⟩
  · rintro ⟨e, he⟩
    by_contra hnone
    obtain ⟨warnings, lights, hread, -⟩ := exists_read_of_right hitems hnumeric
      fun v hv => not_or.mp fun hwrong => hnone ⟨v, hv, hwrong⟩
    rw [hread] at he
    cases he
  · rintro ⟨u, hu, hwrong⟩
    classical
    obtain ⟨v, hfirst⟩ := Option.isSome_iff_exists.mp (List.find?_isSome.mpr
      (⟨u, hu, decide_eq_true hwrong⟩ : ∃ u ∈ items, decide (Offends u ∨ IsOutsized u) = true))
    obtain ⟨hv, before, after, heq, hbefore⟩ := List.find?_eq_some_iff_append.mp hfirst
    obtain ⟨warnings, e, hread, -⟩ := exists_read_of_wrong hitems hnumeric heq
      (fun u hu => not_or.mp (by simpa using hbefore u hu)) (of_decide_eq_true hv)
    exact ⟨e, by rw [hread]⟩
  · intro before v after heq hbefore hv
    obtain ⟨warnings, e, hread, hwarnings, hcause⟩ :=
      exists_read_of_wrong hitems hnumeric heq hbefore hv
    exact ⟨warnings, e, hread, hwarnings,
      hcause.imp_left fun h => ⟨h.1, h.2, message_of_namesEntry h.2⟩⟩

lemma isNumericEntry_of_no_arcs {v : Value} {fields : List (Value × Value)}
    (hfields : v.entries? = some fields) (harcs : field? fields "arcs" = none) :
    IsNumericEntry v := by
  intro fields' hfields' _
  obtain rfl := Option.some.inj (hfields.symm.trans hfields')
  have hnull : field fields "arcs" = .null := by rw [field, harcs, Option.getD_none]
  refine ⟨Or.inl hnull, ?_⟩
  rw [arcsOf, hnull]
  exact List.forall_mem_nil _

/-- An entry that gives something has nothing wrong with it. -/
lemma right_of_readItem (entry : ℕ) {v : Value} {added : List String × List Lighthouse}
    (hv : IsNumericEntry v) (h : readItem entry v = .ok added) :
    ¬ Offends v ∧ ¬ IsOutsized v := by
  cases reads_readItem entry hv with
  | kept _ _ _ hr ho => exact ⟨hr, ho⟩
  | refused e he => cases h.symm.trans he
  | outsized e he => cases h.symm.trans he

/-- The entry of a light with an arc. -/
def omaezaki : Value :=
  .map [(.text "name", .text "Omaezaki"), (.text "lat", .float 34.5955),
    (.text "lon", .float 138.226), (.text "code", .text "Fl W 10s"),
    (.text "arcs", .list [.map [(.text "start", .float 250.0), (.text "end", .float 110.0)]])]

lemma isNumericEntry_omaezaki : IsNumericEntry omaezaki := by
  rintro _ ⟨⟩ -
  refine ⟨Or.inr rfl, ?_⟩
  have hbounds : HasNumericBounds
      (.map [(.text "start", .float 250.0), (.text "end", .float 110.0)]) := by
    rintro _ ⟨⟩ key hkey bound hbound
    simp only [List.mem_cons, List.not_mem_nil, or_false] at hkey
    rcases hkey with rfl | rfl
    · cases hbound
      exact ⟨250.0, rfl⟩
    · cases hbound
      exact ⟨110.0, rfl⟩
  exact List.forall_mem_singleton.mpr hbounds

/-- An entry without a position. -/
def adrift : Value := .map [(.text "lat", .float 1.0)]

/-- The entry of a light without a code. -/
def irago : Value :=
  .map [(.text "name", .text "Irago"), (.text "lat", .float 34.0), (.text "lon", .float 137.0)]

/-- A light, an entry without a position, and an entry without a code. -/
theorem unfinished_catalog_outcome :
    HoldsEntries (.map [(.text "lighthouses", .list [omaezaki, adrift, irago])])
      [omaezaki, adrift, irago] ∧
    ∃ warning e, read (.map [(.text "lighthouses", .list [omaezaki, adrift, irago])]) =
      ⟨[warning], .error e⟩ ∧ NamesEntry 2 e := by
  have hholds : HoldsEntries (.map [(.text "lighthouses", .list [omaezaki, adrift, irago])])
      [omaezaki, adrift, irago] := Or.inr ⟨_, rfl, rfl, rfl⟩
  have hadrift : IsNumericEntry adrift := isNumericEntry_of_no_arcs rfl rfl
  have hirago : IsNumericEntry irago := isNumericEntry_of_no_arcs rfl rfl
  have hoffends : Offends irago := Or.inr ⟨_, rfl, rfl, Or.inr (Or.inl rfl)⟩
  have hsized : ¬ IsOutsized irago := by
    rintro ⟨_, ⟨⟩, ⟨-, ⟨key, hkey, hlong⟩ | ⟨key, hkey, hlarge⟩ | ⟨arc, harc, -⟩⟩ | ⟨hplaced, -⟩⟩
    · simp only [List.mem_cons, List.not_mem_nil, or_false] at hkey
      rcases hkey with rfl | rfl <;> exact hlong ⟨_, rfl⟩
    · simp only [List.mem_cons, List.not_mem_nil, or_false] at hkey
      rcases hkey with rfl | rfl <;> exact hlarge ⟨_, rfl⟩
    · cases harc
    · cases hplaced
  obtain ⟨-, hwrong, -⟩ := read_outcome hholds (List.forall_mem_cons.mpr ⟨isNumericEntry_omaezaki,
    List.forall_mem_cons.mpr ⟨hadrift, List.forall_mem_singleton.mpr hirago⟩⟩)
  obtain ⟨warnings, e, hread, hwarnings, hcause⟩ := hwrong [omaezaki, adrift] irago [] rfl
    (List.forall_mem_cons.mpr ⟨right_of_readItem 0 isNumericEntry_omaezaki rfl,
      List.forall_mem_singleton.mpr (right_of_readItem 1 hadrift rfl)⟩)
    (Or.inl hoffends)
  have hone : unplaced 0 [omaezaki, adrift] = [([(.text "lat", .float 1.0)], 1)] := rfl
  rw [hone] at hwarnings
  obtain ⟨warning, none, -, hnone, rfl⟩ := List.forall₂_cons_left_iff.mp hwarnings
  cases hnone
  obtain ⟨-, hnames, -⟩ := hcause.resolve_right fun h => hsized h.1
  exact ⟨hholds, warning, e, hread, hnames⟩

section

variable {n : ℕ}

/-- The entry of a light whose name is an integer. -/
def numberedLight (n : ℕ) : Value :=
  .map [(.text "name", .int n), (.text "lat", .float 1.0), (.text "lon", .float 2.0),
    (.text "code", .text "Q W")]

lemma not_offends_numberedLight (hpos : 0 < n) : ¬ Offends (numberedLight n) := by
  rintro (⟨⟨⟩⟩ | ⟨_, ⟨⟩, -, hname | hcode | ⟨arc, harc, -⟩⟩)
  · have hzero : decide ((n : ℤ) = 0) = true := hname
    have := of_decide_eq_true hzero
    omega
  · cases hcode
  · cases harc

lemma isOutsized_numberedLight (hlong : tenTo maxDigits ≤ n) : IsOutsized (numberedLight n) := by
  have htext : (Value.int n).toText = .error .tooManyDigits := by
    show literalWithin [] (.int n) = _
    rw [literalWithin, intText, if_pos (by rwa [Int.natAbs_natCast])]
  exact ⟨_, rfl, Or.inl ⟨rfl, Or.inl ⟨"name", by simp, not_writable htext⟩⟩⟩

lemma numberedLight_not_read (hpos : 0 < n) (hlong : tenTo maxDigits ≤ n) :
    HoldsEntries (.list [numberedLight n]) [numberedLight n] ∧ IsNumericEntry (numberedLight n) ∧
      ¬ Offends (numberedLight n) ∧
      ∃ e, read (.list [numberedLight n]) = ⟨[], .error e⟩ ∧ IsAboutSize e := by
  have hholds : HoldsEntries (.list [numberedLight n]) [numberedLight n] := Or.inl ⟨rfl, rfl⟩
  have hnumeric : IsNumericEntry (numberedLight n) := isNumericEntry_of_no_arcs rfl rfl
  have hoffends := not_offends_numberedLight hpos
  obtain ⟨e, hread, hcause⟩ := exists_readFrom_of_wrong 0 [] hnumeric
    (Or.inr (isOutsized_numberedLight hlong))
  refine ⟨hholds, hnumeric, hoffends, e, ?_, (hcause.resolve_left fun h => hoffends h.1).2⟩
  rw [read_of_holdsEntries hholds, hread]

end

lemma tenTo_pos (n : ℕ) : 0 < tenTo n := Nat.pow_pos (by decide)

/-- Reading fails for an entry that does not offend, and without a word of its place. -/
theorem long_name_not_read :
    ∃ v, HoldsEntries (.list [v]) [v] ∧ IsNumericEntry v ∧ ¬ Offends v ∧
      ∃ e, read (.list [v]) = ⟨[], .error e⟩ ∧ IsAboutSize e :=
  ⟨_, numberedLight_not_read (tenTo_pos maxDigits) le_rfl⟩

end Catalog

end Seamark
