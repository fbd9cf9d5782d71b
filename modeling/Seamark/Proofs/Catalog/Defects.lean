import Seamark.Catalog.Listing
import Seamark.Catalog.Reading
import Seamark.Proofs.Document.Defects

/-!
# What is wrong with a catalogue

An entry is judged by itself and by its place, so the defects of a catalogue are those of its
entries one after the other, and reading it fails for the first (`failsFirst_read`).  What keeps its
lights from being listed comes out only afterwards, since a range is not looked at before
(`lightDefects`).
-/

namespace Seamark.Catalog

open Value

/-! ### Arcs -/

/-- What is wrong with an entry that has an arc without a start or an end.  It is told with the name
of the entry, so a name that cannot be written is told in its place. -/
def boundsDefect (entry : Nat) (name : Value) : CatalogError :=
  match name.toText with
  | .ok s => .arcWithoutBounds entry s
  | .error cause => .conversion cause

/-- What is wrong with an arc of the entry with a position and a name. -/
def arcDefects (entry : Nat) (name v : Value) : List CatalogError :=
  let fields := v.entries?.getD []
  match field? fields "start", field? fields "end" with
  | some start, some finish =>
    start.numberDefects.map .conversion ++ (finish.numberDefects.map .conversion
      ++ ((field? fields "color").elim [] textDefects).map .conversion)
  | _, _ => [boundsDefect entry name]

/-- What is wrong with the arcs of an entry. -/
def arcsDefects (entry : Nat) (fields : List (Value × Value)) : List CatalogError :=
  match (field fields "arcs").given? with
  | none => []
  | some v =>
    match v.elements? with
    | some items => items.flatMap (arcDefects entry (field fields "name"))
    | none => [.arcsNotAList]

lemma text_eq (v : Value) : text v = v.toText.mapError .conversion := by
  rw [text]
  cases v.toText <;> rfl

lemma number_eq (v : Value) : number v = v.toFloat.mapError .conversion := by
  rw [number]
  cases v.toFloat <;> rfl

lemma failsFirst_text (v : Value) : FailsFirst (text v) (v.textDefects.map .conversion) := by
  rw [text_eq]
  exact (failsFirst_toText v).mapError _

lemma failsFirst_number (v : Value) : FailsFirst (number v) (v.numberDefects.map .conversion) := by
  rw [number_eq]
  exact (failsFirst_toFloat v).mapError _

lemma failsFirst_throw_bounds {β : Type} (entry : Nat) (name : Value) :
    FailsFirst (text name >>= fun s => (.error (.arcWithoutBounds entry s) : Except CatalogError β))
      [boundsDefect entry name] := by
  rw [text_eq, boundsDefect]
  cases name.toText with
  | ok s => exact .error _ []
  | error cause => exact .error _ []

lemma failsFirst_colorText (fields : List (Value × Value)) :
    FailsFirst (text ((field? fields "color").getD (.text "W")))
      (((field? fields "color").elim [] textDefects).map .conversion) := by
  cases field? fields "color" with
  | none => exact .ok "W"
  | some v => exact failsFirst_text v

lemma failsFirst_readArc (entry : Nat) (name v : Value) :
    FailsFirst (readArc entry name v) (arcDefects entry name v) := by
  rw [readArc, arcDefects]
  cases field? (v.entries?.getD []) "start" with
  | none => exact failsFirst_throw_bounds entry name
  | some start =>
    cases field? (v.entries?.getD []) "end" with
    | none => exact failsFirst_throw_bounds entry name
    | some finish =>
      exact (failsFirst_number start).bind fun _ _ =>
        (failsFirst_number finish).bind fun _ _ => (failsFirst_colorText _).bind_ok

lemma failsFirst_readArcs (entry : Nat) (name : Value) (items : List Value) :
    FailsFirst (readArcs entry name items) (items.flatMap (arcDefects entry name)) := by
  induction items with
  | nil => exact .ok []
  | cons v vs ih => exact (failsFirst_readArc entry name v).bind fun _ _ => ih.bind_ok

lemma failsFirst_arcs (entry : Nat) (fields : List (Value × Value)) :
    FailsFirst (arcValues fields >>= readArcs entry (field fields "name"))
      (arcsDefects entry fields) := by
  rw [arcValues, arcsDefects]
  cases (field fields "arcs").given? with
  | none => exact .ok []
  | some v =>
    dsimp only
    cases v.elements? with
    | none => exact .error _ []
    | some items => exact failsFirst_readArcs entry _ items

/-! ### Entries -/

/-- What is wrong with an entry that lacks what it must have under a key. -/
def missingDefects (entry : Nat) (fields : List (Value × Value)) (key : String) :
    List CatalogError :=
  if (field fields key).isNothing then [.missing entry key] else []

/-- What is wrong with a placed entry. -/
def placedDefects (entry : Nat) (fields : List (Value × Value)) : List CatalogError :=
  missingDefects entry fields "name" ++ (missingDefects entry fields "code"
    ++ (arcsDefects entry fields
    ++ ((field fields "name").textDefects.map .conversion
    ++ ((field fields "lat").numberDefects.map .conversion
    ++ ((field fields "lon").numberDefects.map .conversion
    ++ (field fields "code").textDefects.map .conversion)))))

/-- What is wrong with an entry.  One without a position need not have anything, but its name is
written in a warning. -/
def entryDefects (entry : Nat) (v : Value) : List CatalogError :=
  match v.entries? with
  | none => [.notAMapping entry]
  | some fields =>
    if isPlaced fields then placedDefects entry fields
    else ((field? fields "name").elim [] textDefects).map .conversion

lemma failsFirst_readEntry (entry : Nat) (fields : List (Value × Value)) :
    FailsFirst (readEntry entry fields) (placedDefects entry fields) := by
  rw [readEntry, placedDefects, missingDefects, missingDefects]
  dsimp only
  by_cases hname : (field fields "name").isNothing
  case pos => rw [if_pos hname, if_pos hname]; exact .error _ _
  by_cases hcode : (field fields "code").isNothing
  case pos => rw [if_neg hname, if_neg hname, if_pos hcode, if_pos hcode]; exact .error _ _
  rw [if_neg hname, if_neg hname, if_neg hcode, if_neg hcode, ← bind_assoc]
  exact (failsFirst_arcs entry fields).bind fun _ _ =>
    (failsFirst_text _).bind fun _ _ =>
      (failsFirst_number _).bind fun _ _ =>
        (failsFirst_number _).bind fun _ _ => (failsFirst_text _).bind_ok

lemma failsFirst_skipWarning (entry : Nat) (fields : List (Value × Value)) :
    FailsFirst (skipWarning entry fields)
      (((field? fields "name").elim [] textDefects).map .conversion) := by
  rw [skipWarning]
  cases field? fields "name" with
  | none => exact .ok _
  | some name => exact (failsFirst_text name).bind_ok

/-- Reading entries fails for the first thing that is wrong with one of them. -/
lemma failsFirst_readFrom (entry : Nat) (items : List Value) :
    FailsFirst (readFrom entry items).result
      ((items.zipIdx entry).flatMap fun item => entryDefects item.2 item.1) := by
  induction items generalizing entry with
  | nil => exact .ok []
  | cons v rest ih =>
    rw [readFrom, List.zipIdx_cons, List.flatMap_cons, entryDefects]
    cases v.entries? with
    | none => exact .error _ _
    | some fields =>
      dsimp only
      by_cases hplaced : isPlaced fields
      case pos =>
        rw [if_pos hplaced, if_pos hplaced]
        obtain ⟨light, hlight, hnone⟩ | ⟨e, more, he, hmore⟩ :=
          (failsFirst_readEntry entry fields).ok_or_error
        · rw [hlight, hnone]
          exact (ih (entry + 1)).map _
        · rw [he, hmore]
          exact .error e _
      case neg =>
        rw [if_neg hplaced, if_neg hplaced]
        obtain ⟨warning, hwarning, hnone⟩ | ⟨e, more, he, hmore⟩ :=
          (failsFirst_skipWarning entry fields).ok_or_error
        · rw [hwarning, hnone]
          exact ih (entry + 1)
        · rw [he, hmore]
          exact .error e _

/-! ### The catalogue -/

/-- What is wrong with the document of a catalogue. -/
def defects (document : Value) : List CatalogError :=
  match (entriesValue document).elements? with
  | some items => items.zipIdx.flatMap fun item => entryDefects item.2 item.1
  | none => [.notAList]

/-- Reading a catalogue fails for the first thing that is wrong with its document, and succeeds if
nothing is. -/
theorem failsFirst_read (document : Value) :
    FailsFirst (read document).result (defects document) := by
  rw [read, defects]
  cases (entriesValue document).elements? with
  | none => exact .error _ []
  | some items => exact failsFirst_readFrom 0 items

/-! ### The listing -/

/-- What keeps a light from being listed: it has no timeline, or its range is no number. -/
def lightDefects (compiler : Compiler Float) (shared : Table String) (l : Lighthouse) :
    List ListingError :=
  (defectOf (compiler.compileText shared l.code)).map .compile ++ l.range.rangeDefects.map .range

lemma failsFirst_listingLine (compiler : Compiler Float) (shared : Table String)
    (l : Lighthouse) :
    FailsFirst (listingLine compiler shared l) (lightDefects compiler shared l) := by
  delta listingLine lightDefects
  cases compiler.compileText shared l.code with
  | error cause => exact .error _ _
  | ok ts =>
    obtain ⟨meters, hmeters, hnone⟩ | ⟨e, more, he, hmore⟩ :=
      (failsFirst_rangeMeters l.range).ok_or_error
    · rw [hmeters, hnone]
      exact .ok _
    · rw [he, hmore]
      exact .error _ _

lemma trouble_listingLines (compiler : Compiler Float) (shared : Table String)
    (lights : List Lighthouse) :
    (listingLines compiler shared lights).trouble =
      (lights.flatMap (lightDefects compiler shared)).head? := by
  induction lights with
  | nil => rfl
  | cons l ls ih =>
    rw [List.flatMap_cons]
    obtain ⟨line, hline, hnone⟩ | ⟨e, more, he, hmore⟩ :=
      (failsFirst_listingLine compiler shared l).ok_or_error
    · rw [listingLines.eq_def, hnone]
      simp only [hline]
      exact ih
    · rw [listingLines.eq_def, hmore]
      simp only [he]
      rfl

/-- A listing ends before the first light with a defect, and goes through if there is none. -/
theorem trouble_listing (compiler : Compiler Float) (shared : Table String) (file : String)
    (lights : List Lighthouse) :
    (listing compiler shared file lights).trouble =
      (lights.flatMap (lightDefects compiler shared)).head? := by
  cases lights with
  | nil => rfl
  | cons l ls => exact trouble_listingLines compiler shared (l :: ls)

end Seamark.Catalog
