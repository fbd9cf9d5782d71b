import Mathlib
import Seamark.Color.Token
import Seamark.Proofs.Characteristic.Reading
import Seamark.Proofs.Compiler.Shape

/-!
# Markers and timelines

The token that marks a light on a map holds the colours of its characteristic, in order, and nothing
else: it is cut into them at its slashes (`tokenParts_marker`), since no colour has a slash.  A
timeline takes its colours from the same characteristic by another way, so the two must agree: every
segment has a part of the marker or the whole of it, and a single flash of all colours has the whole
(`marker_agrees`).
-/

namespace Seamark

open Text Characteristic Compiler

/-- What is read has only colours of the notation. -/
lemma Characteristic.mem_colorNames_of_read? {α : Type} [Scalar α] {text : String}
    {c : Characteristic α} (h : read? text = some c) {color : String} (hcolor : color ∈ c.colors) :
    color ∈ colorNames := by
  obtain ⟨d, hd, rfl⟩ := Option.map_eq_some_iff.mp h
  obtain ⟨l, -, hdenotes⟩ := readSettled?_eq_some_iff.mp hd
  obtain ⟨word, -, hname, -⟩ := exists_of_mem_right hdenotes.colors.flip hcolor
  exact hname

/-- A proper segment has a colour of its light or all of them. -/
lemma Segment.Proper.color_cases {α : Type} [Scalar α] {c : Characteristic α} {p : Segment α}
    (h : p.Proper c) : p.color ∈ c.colors ∨ p.color = composite c.colors := by
  by_cases hall : c.ShowsAtOnce ∧ p.lit = true
  · exact Or.inr (h.at_once hall.1 hall.2)
  · exact Or.inl (h.own_color hall)

/-- A single flash shows all the colours of its light, be they several or only one. -/
lemma Segment.Proper.color_of_single {α : Type} [Scalar α] {c : Characteristic α} {p : Segment α}
    (h : p.Proper c) (hcolors : c.colors ≠ []) (htype : c.type = .flashing) {counts : List ℕ}
    (hcounts : Group.counts c.group = .ok counts) (hone : addedUp counts = 1)
    (hlit : p.lit = true) : p.color = composite c.colors := by
  by_cases hseveral : 1 < c.colors.length
  · exact h.at_once ⟨htype, ⟨counts, hcounts, hone⟩, hseveral⟩ hlit
  · obtain ⟨color, heq⟩ : ∃ color, c.colors = [color] :=
      List.length_eq_one_iff.mp (by have := List.length_pos_iff.mpr hcolors; omega)
    have hown := h.own_color fun hall => hseveral hall.1.2.2
    rw [heq, List.mem_singleton] at hown
    rw [hown, heq]
    rfl

namespace Color

/-- The tokens between the slashes of a token. -/
def tokenParts (token : String) : List String :=
  (splitAt '/' token.toList).map String.ofList

lemma slash_not_mem_colorName {name : String} (h : name ∈ colorNames) : '/' ∉ name.toList := by
  simp only [colorNames, List.mem_cons, List.not_mem_nil, or_false] at h
  rcases h with rfl | rfl | rfl | rfl | rfl <;> decide

/-- Colours that are shown at once are the parts of their token. -/
lemma tokenParts_composite {colors : List String} (hne : colors ≠ [])
    (h : ∀ color ∈ colors, color ∈ colorNames) : tokenParts (composite colors) = colors := by
  have hslash : "/".toList = ['/'] := rfl
  have hpieces : ∀ piece ∈ colors.map String.toList, '/' ∉ piece := by
    intro piece hpiece
    obtain ⟨color, hcolor, rfl⟩ := List.mem_map.mp hpiece
    exact slash_not_mem_colorName (h color hcolor)
  rw [tokenParts, composite, String.toList_intercalate, hslash,
    splitAt_intercalate (by simpa using hne) hpieces, List.map_map]
  simp [Function.comp_def]

section

variable {α : Type} [Scalar α] {text : String}

lemma readExact?_eq_none_iff :
    readExact? text = none ↔ (read? text : Option (Characteristic α)) = none := by
  rw [read?, Option.map_eq_none_iff]

lemma marker_of_none (h : (read? text : Option (Characteristic α)) = none) : marker text = "W" := by
  rw [marker, readExact?_eq_none_iff.mpr h]

/-- A characteristic is marked with all its colours. -/
lemma marker_of_some {c : Characteristic α} (h : read? text = some c) :
    marker text = composite c.colors := by
  have hne := colors_ne_nil_of_read? h
  obtain ⟨d, hd, rfl⟩ := Option.map_eq_some_iff.mp h
  have hfull : d.colors.isEmpty = false := List.isEmpty_eq_false_iff.mpr hne
  rw [marker, hd]
  simp only [hfull, Bool.false_eq_true, if_false]
  rfl

/-- **A marker is cut into the colours of the characteristic.** -/
lemma tokenParts_marker {c : Characteristic α} (h : read? text = some c) :
    tokenParts (marker text) = c.colors := by
  rw [marker_of_some h]
  exact tokenParts_composite (colors_ne_nil_of_read? h) fun _ => mem_colorNames_of_read? h

/-- Characteristics have the same marker exactly if they have the same colours. -/
lemma marker_eq_iff {text' : String} {c c' : Characteristic α} (h : read? text = some c)
    (h' : read? text' = some c') : marker text = marker text' ↔ c.colors = c'.colors := by
  refine ⟨fun heq => ?_, fun heq => by rw [marker_of_some h, marker_of_some h', heq]⟩
  rw [← tokenParts_marker h, ← tokenParts_marker h', heq]

end

/-- **The marker and the timeline agree.**  A text of no characteristic is marked white and has the
empty timeline.  The marker of a characteristic is cut into its colours, so it is the same for two
of them exactly if their colours are.  Every segment of its timeline has a part of the marker or the
whole of it, and what a flashing light shows in a single flash has the whole. -/
theorem marker_agrees (shared : Table String) (text : String) :
    ((read? text : Option (Characteristic Float)) = none →
      marker text = "W" ∧ (standard : Compiler Float).compileText shared text = .ok []) ∧
    ∀ c : Characteristic Float, read? text = some c →
      tokenParts (marker text) = c.colors ∧
      (∀ (text' : String) (c' : Characteristic Float), read? text' = some c' →
        (marker text = marker text' ↔ c.colors = c'.colors)) ∧
      ∀ ts, (standard : Compiler Float).compileText shared text = .ok ts →
        (∀ p ∈ ts, p.color ∈ tokenParts (marker text) ∨ p.color = marker text) ∧
        (c.type = .flashing →
          ∀ counts, Group.counts c.group = .ok counts → addedUp counts = 1 →
            ∀ p ∈ ts, p.lit = true → p.color = marker text) := by
  refine ⟨fun hnone => ⟨marker_of_none hnone, ?_⟩, fun c hread => ?_⟩
  · rw [compileText, hnone]
    rfl
  · have hmarker := marker_of_some hread
    have hparts := tokenParts_marker hread
    refine ⟨hparts, fun _ _ hread' => marker_eq_iff hread hread', fun ts hts => ?_⟩
    rw [compileText, hread] at hts
    have hproper := compile_proper rfl hts
    refine ⟨fun p hp => ?_, fun htype counts hcounts hone p hp hlit => ?_⟩
    · rw [hparts, hmarker]
      exact (hproper p hp).2.color_cases
    · rw [hmarker]
      exact (hproper p hp).2.color_of_single (colors_ne_nil_of_read? hread) htype hcounts hone hlit

/-- A single flash of two colours and the darkness after it, a fixed light with the same marker, and
a text of no characteristic. -/
theorem two_colors_marker_agrees :
    let ts : Timeline Float := [⟨true, 0.3, "W/R", 1.0⟩, ⟨false, 4.7, "W", 1.0⟩]
    (read? "Fl W R 5s" : Option (Characteristic Float)) =
        some ⟨.flashing, none, ["W", "R"], some 5.0⟩ ∧
      (standard : Compiler Float).compileText Morse.builtin "Fl W R 5s" = .ok ts ∧
      tokenParts (marker "Fl W R 5s") = ["W", "R"] ∧ marker "Fl W R 5s" = marker "F W R" ∧
      (∀ p ∈ ts, p.color ∈ tokenParts (marker "Fl W R 5s") ∨ p.color = marker "Fl W R 5s") ∧
      (∀ p ∈ ts, p.lit = true → p.color = marker "Fl W R 5s") ∧ marker "Fl 5s" = "W" := by
  intro ts
  have hread : (read? "Fl W R 5s" : Option (Characteristic Float)) =
      some ⟨.flashing, none, ["W", "R"], some 5.0⟩ := by decide +kernel
  have hfixed : (read? "F W R" : Option (Characteristic Float)) =
      some ⟨.fixed, none, ["W", "R"], none⟩ := by decide +kernel
  have hnone : (read? "Fl 5s" : Option (Characteristic Float)) = none := by decide +kernel
  have hts : (standard : Compiler Float).compileText Morse.builtin "Fl W R 5s" = .ok ts := by
    decide +kernel
  obtain ⟨hparts, hsame, hcolors⟩ := (marker_agrees Morse.builtin "Fl W R 5s").2 _ hread
  obtain ⟨hevery, hsingle⟩ := hcolors ts hts
  have hwhite := ((marker_agrees Morse.builtin "Fl 5s").1 hnone).1
  exact ⟨hread, hts, hparts, (hsame "F W R" _ hfixed).mpr rfl, hevery, hsingle rfl [1] rfl rfl,
    hwhite⟩

end Color

end Seamark
