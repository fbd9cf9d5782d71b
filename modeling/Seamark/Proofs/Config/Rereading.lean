import Mathlib
import Seamark.Compiler.Compile
import Seamark.Config
import Seamark.Proofs.Document.Rereading
import Seamark.Proofs.Double.Order
import Seamark.Proofs.Table

/-!
# Reading a configuration that was written

A written configuration has a key for each of its settings, and none for a catalogue that is not
given, which is what the reader takes for a missing one.  Every setting is written as a value of the
kind that it is read from, so the reader changes none of them, and tables with distinct keys come
back with the same entries in the same order (`tableField_of_tableValue`).  So a configuration is
read as it was (`read_toValue`): nothing that is made of it, the colours of the tokens or a
compiler, can tell the two apart.
-/

namespace Seamark.Config

open Value

/-- A configuration as a program has it: keys are set once, times are numbers, and the catalogue is
the name of a file or none. -/
structure IsProper (c : Config) : Prop where
  /-- No token has two values. -/
  colors : c.colors.keys.Nodup
  /-- No character has two codes. -/
  morse : c.morse.keys.Nodup
  /-- The length of a cycle is a number, perhaps infinite. -/
  fallbackPeriod : c.fallbackPeriod.isNaN = false
  /-- The time in a colour is a number, perhaps infinite. -/
  dwell : c.dwell.isNaN = false
  /-- There is no catalogue, or a file with a name. -/
  catalog : c.catalog = .null ∨ ∃ file, file ≠ "" ∧ c.catalog = .text file

/-! ### Settings -/

lemma textEntries_of_texts (entries : List (String × String)) :
    textEntries (entries.map fun entry => (.text entry.1, .text entry.2)) = .ok entries := by
  induction entries with
  | nil => rfl
  | cons entry entries ih =>
    rw [List.map_cons, textEntries, ih]
    rfl

/-- A written table is read as it was; an empty one counts as not given and is read as empty. -/
lemma tableField_of_tableValue {fields : List (Value × Value)} {key : String} {t : Table String}
    (h : field fields key = tableValue t) (ht : t.keys.Nodup) : tableField fields key = .ok t := by
  obtain ⟨entries⟩ := t
  rw [tableField, h]
  cases entries with
  | nil => rfl
  | cons entry entries =>
    have hgiven : (tableValue ⟨entry :: entries⟩).given? = some (tableValue ⟨entry :: entries⟩) :=
      rfl
    rw [hgiven]
    simp only [tableValue, entries?, textEntries_of_texts]
    show Except.ok (Table.ofList (entry :: entries)) = _
    rw [Table.ofList_entries ht]

section

variable (c : Config)

lemma field_colors : field c.toEntries "colors" = tableValue c.colors := rfl

lemma field_morse : field c.toEntries "morse" = tableValue c.morse := rfl

lemma field?_fallbackPeriod :
    field? c.toEntries "fallback_period" = some (.float c.fallbackPeriod) := rfl

lemma field?_dwell : field? c.toEntries "continuous_dwell" = some (.float c.dwell) := rfl

lemma field?_defaultCharacter :
    field? c.toEntries "default_morse_char" = some (.text c.defaultCharacter) := rfl

end

/-- A catalogue that is not written is read as none. -/
lemma field_catalog {c : Config} (hc : c.IsProper) : field c.toEntries "catalog" = c.catalog := by
  obtain ⟨colors, morse, fallbackPeriod, dwell, defaultCharacter, catalog⟩ := c
  obtain rfl | ⟨file, hfile, rfl⟩ : catalog = .null ∨ ∃ file, file ≠ "" ∧ catalog = .text file :=
    hc.catalog
  · rfl
  · simp only [toEntries, isNothing_text hfile, Bool.false_eq_true, if_false]
    rfl

/-! ### The document -/

/-- The settings of a written configuration are read as they were. -/
lemma ofFields_toEntries {c : Config} (hc : c.IsProper) : ofFields c.toEntries = .ok c := by
  simp only [ofFields, tableField_of_tableValue (field_colors c) hc.colors,
    tableField_of_tableValue (field_morse c) hc.morse, field?_fallbackPeriod, field?_dwell,
    field?_defaultCharacter, field_catalog hc, Option.getD_some]
  rfl

/-- The document of a configuration is read as this configuration, whatever its file is called. -/
lemma read_toValue {c : Config} (hc : c.IsProper) (file : String) :
    read file c.toValue = .ok c := by
  have hgiven : c.toValue.given? = some (.map c.toEntries) := rfl
  rw [read, hgiven]
  exact ofFields_toEntries hc

/-! ### Equal configurations -/

lemma sameEntries_of_texts {entries : List (String × String)} {all : List (Value × Value)}
    (h : ∀ entry ∈ entries, ((.text entry.1, .text entry.2) : Value × Value) ∈ all) :
    sameEntries (entries.map fun entry => (.text entry.1, .text entry.2)) all = true := by
  induction entries with
  | nil => simp [sameEntries]
  | cons entry entries ih =>
    rw [List.map_cons, sameEntries, ih fun other hother => h other (List.mem_cons_of_mem _ hother),
      Bool.and_true, List.any_eq_true]
    exact ⟨_, h entry List.mem_cons_self, by simp [Value.same]⟩

lemma same_tableValue (t : Table String) : (tableValue t).same (tableValue t) = true := by
  rw [tableValue, Value.same, beq_self_eq_true, Bool.true_and]
  exact sameEntries_of_texts fun entry hentry => List.mem_map_of_mem hentry

/-- A configuration is equal to itself. -/
lemma same_self {c : Config} (hc : c.IsProper) : c.same c = true := by
  have hcatalog : c.catalog.same c.catalog = true := by
    obtain h | ⟨file, -, h⟩ := hc.catalog <;> rw [h] <;> simp [Value.same]
  simp only [Config.same, same_tableValue, Double.beq_self_of_isNaN hc.fallbackPeriod,
    Double.beq_self_of_isNaN hc.dwell, beq_self_eq_true, hcatalog, Bool.and_self]

/-- **A configuration that is written and read again is the same.**  Take any printer and any reader
of documents.  If the reader makes of the printed text what was printed, then reading this text as a
configuration gives an equal one, whatever the file is called.  So it gives the tokens the same
colours, and a compiler that is made of it gives every light the same timeline, whatever Morse codes
are shared when it is made and when it is used.  The text of `render` is the case of the printer
`Document.render false`. -/
theorem reread_equal {ε : Type} (dump : List (Value × Value) → String)
    (load : String → Except ε Value) {c : Config} (hc : c.IsProper) (file : String)
    (htext : load (dump c.toEntries) = .ok c.toValue) :
    ∃ reread, (load (dump c.toEntries)).map (read file) = .ok (.ok reread) ∧
      reread = c ∧ reread.same c = true ∧ reread.colorTable = c.colorTable ∧
      ∀ (atMaking atUse : Table String) (light : Option (Characteristic Float)),
        (reread.compiler atMaking).compile atUse light =
          (c.compiler atMaking).compile atUse light := by
  refine ⟨c, ?_, rfl, same_self hc, rfl, fun _ _ _ => rfl⟩
  rw [htext]
  exact congrArg Except.ok (read_toValue hc file)

/-! ### A configuration whose text is read back -/

/-- A configuration that sets all that can be set, the code of a digit among it. -/
def tuned : Config where
  colors := ⟨[("R", "#FF3030")]⟩
  morse := ⟨[("1", ".----")]⟩
  fallbackPeriod := 12.5
  dwell := 2.0
  defaultCharacter := "K"
  catalog := .text "lights.yaml"

/-- The text of this configuration: the digit is quoted, for it would be read as a number. -/
def tunedText : String :=
  "colors:\n  R: '#FF3030'\nmorse:\n  '1': .----\nfallback_period: 12.5\ncontinuous_dwell: 2.0\n"
    ++ "default_morse_char: K\ncatalog: lights.yaml\n"

/-- The parts of this text. -/
def tunedDraft : Document.Draft where
  root := 0
  parts :=
    #[.map [(1, 2), (5, 6), (9, 10), (11, 12), (13, 14), (15, 16)],
      .scalar "colors" true, .map [(3, 4)], .scalar "R" true, .scalar "#FF3030" false,
      .scalar "morse" true, .map [(7, 8)], .scalar "1" false, .scalar ".----" true,
      .scalar "fallback_period" true, .scalar "12.5" true,
      .scalar "continuous_dwell" true, .scalar "2.0" true,
      .scalar "default_morse_char" true, .scalar "K" true,
      .scalar "catalog" true, .scalar "lights.yaml" true]

lemma render_tuned : render tuned = tunedText := by
  have hperiodShape : doubleShape 12.5 = .finite false ⟨7036874417766400, -49⟩ := by decide +kernel
  have hperiod : Document.floatSpelling.write 12.5 = "12.5" :=
    (Document.write_of_shape (d := ⟨125, -1⟩) hperiodShape (by decide) (by decide +kernel) (by cbv)
      (by decide +kernel)).trans (by decide +kernel)
  have hdwellShape : doubleShape 2.0 = .finite false ⟨4503599627370496, -51⟩ := by decide +kernel
  have hdwell : Document.floatSpelling.write 2.0 = "2.0" :=
    (Document.write_of_shape (d := ⟨2, 0⟩) hdwellShape (by decide) (by decide +kernel) (by cbv)
      (by decide +kernel)).trans (by decide +kernel)
  simp only [render, toEntries, tuned, tableValue, isNothing, String.reduceEq, decide_false,
    Bool.false_eq_true, if_false, List.map, Document.render, Document.putEntries,
    Document.putValue, List.cons_append, List.nil_append, List.isEmpty_cons, hperiod, hdwell]
  decide +kernel

lemma draftOf_tunedText : Document.draftOf tunedText = .ok tunedDraft :=
  Document.eq_of_parts_eq (by decide +kernel)

lemma settled_tunedDraft : tunedDraft.settled = .ok tunedDraft :=
  Document.eq_of_parts_eq (by decide +kernel)

lemma value_tunedDraft : tunedDraft.value = tuned.toValue := rfl

lemma read_tunedText : Document.read (render tuned) = .ok tuned.toValue := by
  rw [render_tuned, Document.read_of_draftOf draftOf_tunedText settled_tunedDraft, value_tunedDraft]

lemma tuned_isProper : tuned.IsProper where
  colors := by decide
  morse := by decide
  fallbackPeriod := by decide
  dwell := by decide
  catalog := Or.inr ⟨"lights.yaml", by decide, rfl⟩

theorem tuned_reread_equal :
    tuned.IsProper ∧ Document.read (render tuned) = .ok tuned.toValue ∧
      ∃ reread, (Document.read (render tuned)).map (read "config.yaml") = .ok (.ok reread) ∧
        reread = tuned ∧ reread.same tuned = true ∧ reread.colorTable = tuned.colorTable ∧
        ∀ (atMaking atUse : Table String) (light : Option (Characteristic Float)),
          (reread.compiler atMaking).compile atUse light =
            (tuned.compiler atMaking).compile atUse light :=
  ⟨tuned_isProper, read_tunedText,
    reread_equal (Document.render false) Document.read tuned_isProper "config.yaml" read_tunedText⟩

end Seamark.Config
