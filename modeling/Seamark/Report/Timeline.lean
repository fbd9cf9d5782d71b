import Seamark.Characteristic.Basic
import Seamark.Report.Json
import Seamark.Text.Padding
import Seamark.Timeline.Basic

/-!
# Timeline reports

A characteristic with its timeline, as lines for a reader or as a value for other programs.
-/

namespace Seamark.Report

/-- The line of a segment. -/
def segmentLine (index : Nat) (s : Segment Float) : String :=
  "  [" ++ Text.padLeft 2 (toString index) ++ "] " ++ (if s.lit then "ON " else "off") ++ " "
    ++ Text.padLeft 8 (fixedText 3 s.duration) ++ "s  " ++ s.color
    ++ if s.lit && s.intensity != 1.0 then "  x" ++ generalText s.intensity else ""

/-- The lines for a notation, its characteristic and its timeline. -/
def lines (code : String) (c : Characteristic Float) (ts : Timeline Float) : List String :=
  ["Code:   " ++ code,
    "Type:   " ++ c.type.name,
    "Group:  " ++ c.group.getD "-",
    "Colors: " ++ " ".intercalate c.colors,
    "Period: " ++ (match c.period with
      | some p => generalText p ++ "s"
      | none => "none"),
    "",
    "TIMELINE (" ++ toString ts.length ++ " segments, " ++ fixedText 3 ts.total ++ "s cycle):",
    "".pushn '-' 50]
    ++ ts.zipIdx.map fun entry => segmentLine entry.2 entry.1

/-- A segment as a value. -/
def segmentJson (s : Segment Float) : Json :=
  .object [("on", .bool s.lit), ("duration", .number s.duration), ("color", .text s.color),
    ("intensity", .number s.intensity)]

/-- A characteristic and its timeline as a value. -/
def json (c : Characteristic Float) (ts : Timeline Float) : Json :=
  .object [("type", .text c.type.name),
    ("group_param", (c.group.map Json.text).getD .null),
    ("colors", .array (c.colors.map Json.text)),
    ("period", (c.period.map Json.number).getD .null),
    ("segments", .array (ts.map segmentJson))]

end Seamark.Report
