import Mathlib
import Seamark.Catalog.Reading
import Seamark.Catalog.Writing
import Seamark.Proofs.Document.Rereading

/-!
# Reading a catalogue that was written

A written light has a key for each thing that it has, and for no other, and the reader fills in for
a missing key what the writer left it out for.  So the entry of a light is read as this light
(`readEntry_fields`), an arc as this arc (`readArc_toValue`), and the document of a catalogue as the
lights in it, without a warning.  The only lights that cannot be kept in this way are those without
a name or a notation.
-/

namespace Seamark

/-- The light has a name and a notation. -/
structure Lighthouse.IsNamed (l : Lighthouse) : Prop where
  /-- The name is not empty. -/
  name : l.name ≠ ""
  /-- The notation is not empty. -/
  code : l.code ≠ ""

namespace Lighthouse

/-- The entries of the map that a light is written as. -/
def fields (l : Lighthouse) : List (Value × Value) :=
  [(.text "name", .text l.name), (.text "lat", .float l.lat), (.text "lon", .float l.lon),
    (.text "code", .text l.code)]
  ++ (match l.range with
    | .null => []
    | v => [(.text "range", v)])
  ++ if l.arcs.isEmpty then [] else [(.text "arcs", .list (l.arcs.map Arc.toValue))]

lemma toValue_eq_map (l : Lighthouse) : l.toValue = .map l.fields := rfl

end Lighthouse

open Value

namespace Catalog

/-! ### Arcs -/

/-- A written arc is read as it was. -/
lemma readArc_toValue (entry : Nat) (name : Value) (a : Arc) :
    readArc entry name a.toValue = .ok a := by
  simp only [readArc, Arc.toValue, entries?, Option.getD_some, field?_cons, String.reduceEq,
    if_true, if_false]
  rfl

lemma readArcs_toValue (entry : Nat) (name : Value) (arcs : List Arc) :
    readArcs entry name (arcs.map Arc.toValue) = .ok arcs := by
  induction arcs with
  | nil => rfl
  | cons a arcs ih =>
    rw [List.map_cons, readArcs, readArc_toValue, ih]
    rfl

/-! ### Lights -/

section

variable (l : Lighthouse)

lemma field_name : field l.fields "name" = .text l.name := rfl

lemma field_lat : field l.fields "lat" = .float l.lat := rfl

lemma field_lon : field l.fields "lon" = .float l.lon := rfl

lemma field_code : field l.fields "code" = .text l.code := rfl

/-- A range that is not written is read as none. -/
lemma field_range : field l.fields "range" = l.range := by
  obtain ⟨name, lat, lon, code, range, arcs⟩ := l
  cases range <;> cases arcs <;> rfl

/-- Arcs that are not written are read as none. -/
lemma arcValues_fields : arcValues l.fields = .ok (l.arcs.map Arc.toValue) := by
  obtain ⟨name, lat, lon, code, range, arcs⟩ := l
  cases range <;> cases arcs <;> rfl

lemma isPlaced_fields : isPlaced l.fields = true := rfl

end

/-- The entry of a light with a name and a notation is read as this light. -/
lemma readEntry_fields {l : Lighthouse} (hl : l.IsNamed) (entry : Nat) :
    readEntry entry l.fields = .ok l := by
  simp only [readEntry, field_name, field_lat, field_lon, field_code, field_range,
    isNothing_text hl.name, isNothing_text hl.code, arcValues_fields, Bool.false_eq_true, if_false]
  show (readArcs entry (.text l.name) (l.arcs.map Arc.toValue) >>= fun arcs =>
    Except.ok { l with arcs := arcs }) = .ok l
  rw [readArcs_toValue]
  rfl

/-- Written lights are read as they were, without a warning. -/
lemma readFrom_toValue {lights : List Lighthouse} (hlights : ∀ l ∈ lights, l.IsNamed)
    (entry : Nat) : readFrom entry (lights.map Lighthouse.toValue) = ⟨[], .ok lights⟩ := by
  induction lights generalizing entry with
  | nil => rfl
  | cons l lights ih =>
    have hl := hlights l (by simp)
    have hrest := ih (fun other hother => hlights other (List.mem_cons_of_mem _ hother)) (entry + 1)
    rw [List.map_cons, Lighthouse.toValue_eq_map, readFrom]
    simp only [entries?, isPlaced_fields, if_true, readEntry_fields hl, hrest]
    rfl

/-- The values that the document of a catalogue holds are those of its lights. -/
lemma elements?_toValue (lights : List Lighthouse) :
    (entriesValue (toValue lights)).elements? = some (lights.map Lighthouse.toValue) := by
  cases lights <;> rfl

/-- The document of a catalogue is read as the lights in it. -/
lemma read_toValue {lights : List Lighthouse} (hlights : ∀ l ∈ lights, l.IsNamed) :
    read (toValue lights) = ⟨[], .ok lights⟩ := by
  rw [read, elements?_toValue]
  exact readFrom_toValue hlights 0

/-- **A catalogue that is written and read again is the same.** Take any printer and any reader of
documents.  If the reader makes of the printed text what was printed, then reading this text as a
catalogue gives the same lights in the same order, with all that they have, and no warning. So
whatever document the lights were read from, writing them and reading them again gives what that
document gave.  The text of `render` is the case of the printer `Document.render true`. -/
theorem read_rendered {ε : Type} (dump : List (Value × Value) → String)
    (load : String → Except ε Value) (lights : List Lighthouse)
    (hlights : ∀ l ∈ lights, l.IsNamed)
    (htext : load (dump (toEntries lights)) = .ok (toValue lights)) :
    (load (dump (toEntries lights))).map read = .ok ⟨[], .ok lights⟩ ∧
      ∀ document, (read document).result = .ok lights →
        (load (dump (toEntries lights))).map (fun reread => (read reread).result) =
          .ok (read document).result := by
  rw [htext]
  refine ⟨congrArg Except.ok (read_toValue hlights), fun document hdocument => ?_⟩
  rw [hdocument]
  exact congrArg (fun outcome => Except.ok outcome.result) (read_toValue hlights)

/-! ### A catalogue whose text is read back -/

/-- A light that has all that a light can have. -/
def harbor : List Lighthouse :=
  [{ name := "Pier", lat := 34.5, lon := 0.0, code := "F W", range := .text "9 NM",
     arcs := [⟨0.0, 34.5, "R"⟩] }]

/-- The text of the catalogue of this light. -/
def harborText : String :=
  "lighthouses:\n- name: Pier\n  lat: 34.5\n  lon: 0.0\n  code: F W\n  range: 9 NM\n"
    ++ "  arcs:\n  - start: 0.0\n    end: 34.5\n    color: R\n"

/-- The parts of this text. -/
def harborDraft : Document.Draft where
  root := 0
  parts :=
    #[.map [(1, 2)], .scalar "lighthouses" true, .list [3],
      .map [(4, 5), (6, 7), (8, 9), (10, 11), (12, 13), (14, 15)],
      .scalar "name" true, .scalar "Pier" true, .scalar "lat" true, .scalar "34.5" true,
      .scalar "lon" true, .scalar "0.0" true, .scalar "code" true, .scalar "F W" true,
      .scalar "range" true, .scalar "9 NM" true, .scalar "arcs" true, .list [16],
      .map [(17, 18), (19, 20), (21, 22)], .scalar "start" true, .scalar "0.0" true,
      .scalar "end" true, .scalar "34.5" true, .scalar "color" true, .scalar "R" true]

lemma render_harbor : render harbor = harborText := by
  have hlatShape : doubleShape 34.5 = .finite false ⟨4855443348258816, -47⟩ := by decide +kernel
  have hlat : Document.floatSpelling.write 34.5 = "34.5" :=
    (Document.write_of_shape (d := ⟨345, -1⟩) hlatShape (by decide) (by decide +kernel) (by cbv)
      (by decide +kernel)).trans (by decide +kernel)
  have hzero : Document.floatSpelling.write 0.0 = "0.0" := by decide +kernel
  simp only [render, toEntries, harbor, Lighthouse.toValue, Arc.toValue, List.map, Document.render,
    Document.putEntries, Document.putValue, Document.putItems, List.cons_append, List.nil_append,
    List.isEmpty_cons, Bool.false_eq_true, if_false, hlat, hzero]
  decide +kernel

lemma draftOf_harborText : Document.draftOf harborText = .ok harborDraft :=
  Document.eq_of_parts_eq (by decide +kernel)

lemma settled_harborDraft : harborDraft.settled = .ok harborDraft :=
  Document.eq_of_parts_eq (by decide +kernel)

lemma value_harborDraft : harborDraft.value = toValue harbor := rfl

lemma read_harborText : Document.read (render harbor) = .ok (toValue harbor) := by
  rw [render_harbor, Document.read_of_draftOf draftOf_harborText settled_harborDraft,
    value_harborDraft]

theorem harbor_reread :
    (∀ l ∈ harbor, l.IsNamed) ∧ Document.read (render harbor) = .ok (toValue harbor) ∧
      (Document.read (render harbor)).map read = .ok ⟨[], .ok harbor⟩ ∧
      (Document.read (render harbor)).map (fun reread => (read reread).result) =
        .ok (read (toValue harbor)).result := by
  have hnamed : ∀ l ∈ harbor, l.IsNamed := by
    intro l hl
    rw [List.mem_singleton.mp hl]
    exact ⟨by decide, by decide⟩
  have hreread := read_rendered (Document.render true) Document.read harbor hnamed read_harborText
  exact ⟨hnamed, read_harborText, hreread.1,
    hreread.2 _ (congrArg Outcome.result (read_toValue hnamed))⟩

end Catalog

end Seamark
