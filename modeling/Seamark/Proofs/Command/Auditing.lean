import Mathlib
import Seamark.Command.Audit
import Seamark.Proofs.Catalog.Ranking
import Seamark.Proofs.Command.Printed

/-!
# What an audit reports

An audit of a catalogue that can be read names the lights whose notation is no characteristic, one
in a line and in the order of the catalogue, then counts them, and then ranks their notations.  It
ends with the status zero exactly if there is no such light (`audit_reports`).
-/

namespace Seamark.Command

open Catalog Characteristic

/-- The lights whose notation is no characteristic. -/
def faulty (lights : List Lighthouse) : List Lighthouse :=
  lights.filter fun l => (read? l.code : Option (Characteristic Float)).isNone

/-- The line of a faulty light. -/
def faultyLine (l : Lighthouse) : String := "  " ++ l.name ++ ": " ++ Text.quoted l.code

/-- The line of a notation in the ranking. -/
def rankedLine (entry : String × ℕ) : String :=
  "  " ++ Text.padLeft 4 (toString entry.2) ++ "  " ++ entry.1

/-- An outcome that reports on some lights after some warnings. -/
structure ReportsOn (warnings : List String) (lights : List Lighthouse)
    (outcome : Outcome Float) : Prop where
  /-- The faulty lights are named and counted, and the ten most common of their notations are ranked
  if there are any.  This is all that is printed. -/
  text : ∃ ranking, IsRanking 10 ((faulty lights).map (·.code)) ranking ∧
    outcome.text = String.join ((warnings ++ (faulty lights).map faultyLine ++
      ["", "Checked " ++ toString lights.length ++ " lights, "
        ++ toString (faulty lights).length ++ " unparseable"] ++
      if faulty lights = [] then [] else "Most common:" :: ranking.map rankedLine).map (· ++ "\n"))
  /-- The status is zero if every notation is a characteristic, -/
  passes : outcome.ending = .status 0 ↔
    ∀ l ∈ lights, ∃ c : Characteristic Float, read? l.code = some c
  /-- and one otherwise. -/
  fails : outcome.ending = .status 0 ∨ outcome.ending = .status 1

lemma unreadable_eq_faulty (lights : List Lighthouse) : unreadable lights = faulty lights := by
  refine List.filter_congr fun l _ => ?_
  rw [isUnreadable, read?, Option.isNone_map]

lemma faulty_eq_nil_iff {lights : List Lighthouse} :
    faulty lights = [] ↔ ∀ l ∈ lights, ∃ c : Characteristic Float, read? l.code = some c := by
  simp only [faulty, List.filter_eq_nil_iff, Option.isNone_iff_eq_none, Option.ne_none_iff_exists']

/-- The lines of an audit, its ranking apart. -/
lemma auditLines_eq (lights : List Lighthouse) :
    auditLines lights = (faulty lights).map faultyLine ++
      ["", "Checked " ++ toString lights.length ++ " lights, "
        ++ toString (faulty lights).length ++ " unparseable"] ++
      if faulty lights = [] then []
      else "Most common:" :: (mostCommon 10 ((faulty lights).map (·.code))).map rankedLine := by
  simp only [auditLines, unreadable_eq_faulty, List.isEmpty_iff]
  rfl

/-- The outcome of auditing a catalogue that can be read. -/
lemma run_audit {fetch : Fetch Id} {file : String} {document : Value} {lights : List Lighthouse}
    (hfile : fetch (Path.normal file) = .ok document)
    (hread : (Catalog.read document).result = .ok lights) (name : String) :
    (audit fetch name [file]).run =
      .ofLines ((Catalog.read document).warnings ++ auditLines lights)
        (if faulty lights = [] then 0 else 1) := by
  have hdocument : (audit fetch name [file]).run =
      auditDocument (Path.normal file) (fetch (Path.normal file)) := rfl
  rw [hdocument, hfile]
  simp only [auditDocument, hread, unreadable_eq_faulty, List.isEmpty_iff]

/-- **An audit reports exactly the lights that cannot be read.**  For every file with a catalogue
that can be read, the audit prints the warnings of reading, then a line for each light whose
notation is no characteristic, in order, then how many lights there are and how many of these, and
then, if there are any, their ten most common notations by rank.  The status is zero if there is no
such light, and one otherwise. -/
theorem audit_reports (fetch : Fetch Id) (name file : String) {document : Value}
    {lights : List Lighthouse} (hfile : fetch (Path.normal file) = .ok document)
    (hread : (Catalog.read document).result = .ok lights) :
    ReportsOn (Catalog.read document).warnings lights (audit fetch name [file]).run := by
  rw [run_audit hfile hread]
  refine ⟨⟨_, isRanking_mostCommon 10 _, ?_⟩, ?_, ?_⟩
  · rw [Outcome.text_ofLines, auditLines_eq]
    simp only [List.append_assoc]
  · rw [← faulty_eq_nil_iff, Outcome.ending_ofLines]
    split_ifs with hnone <;> simp [hnone]
  · rw [Outcome.ending_ofLines]
    split_ifs <;> simp

/-- The entry of a light with a name and a notation. -/
def chartedLight (name code : String) : Value :=
  .map [(.text "name", .text name), (.text "lat", .float 34.5), (.text "lon", .float 8.25),
    (.text "code", .text code)]

/-- A catalogue of four lights, two of them with one faulty notation, and an entry without a
position. -/
def coast : Value :=
  .list [chartedLight "Pier" "Fl", chartedLight "Head" "F W", chartedLight "Mole" "Q 5s",
    chartedLight "Spit" "Q 5s", .map [(.text "name", .text "Adrift")]]

theorem coast_audit_reports :
    let lights : List Lighthouse := [⟨"Pier", 34.5, 8.25, "Fl", .null, []⟩,
      ⟨"Head", 34.5, 8.25, "F W", .null, []⟩, ⟨"Mole", 34.5, 8.25, "Q 5s", .null, []⟩,
      ⟨"Spit", 34.5, 8.25, "Q 5s", .null, []⟩]
    let outcome := (audit (m := Id) (fun _ => .ok coast) "audit" ["coast.yaml"]).run
    (Catalog.read coast).result = .ok lights ∧
      ReportsOn ["[CATALOG] Warning: skipping Adrift: no position"] lights outcome ∧
      outcome.text = "[CATALOG] Warning: skipping Adrift: no position\n" ++
        "  Pier: 'Fl'\n  Mole: 'Q 5s'\n  Spit: 'Q 5s'\n\nChecked 4 lights, 3 unparseable\n" ++
        "Most common:\n     2  Q 5s\n     1  Fl\n" := by
  intro lights
  have hread : Catalog.read coast =
      ⟨["[CATALOG] Warning: skipping Adrift: no position"], .ok lights⟩ := rfl
  have hlights := congrArg Catalog.Outcome.result hread
  have hreports := audit_reports (fun _ => .ok coast) "audit" "coast.yaml" rfl hlights
  rw [hread] at hreports
  have hcodes : (faulty lights).map (·.code) = ["Fl", "Q 5s", "Q 5s"] := by decide +kernel
  have hranking : mostCommon 10 ["Fl", "Q 5s", "Q 5s"] = [("Q 5s", 2), ("Fl", 1)] := by
    cbv
  have hlines : auditLines lights = ["  Pier: 'Fl'", "  Mole: 'Q 5s'", "  Spit: 'Q 5s'", "",
      "Checked 4 lights, 3 unparseable", "Most common:", "     2  Q 5s", "     1  Fl"] := by
    rw [auditLines_eq, hcodes, hranking]
    decide +kernel
  refine ⟨hlights, hreports, ?_⟩
  rw [run_audit rfl hlights, Outcome.text_ofLines, hread, hlines]
  decide +kernel

end Seamark.Command
