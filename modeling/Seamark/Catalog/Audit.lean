import Seamark.Catalog.Basic
import Seamark.Characteristic.Reader
import Seamark.Text.Padding

/-!
# Auditing a catalogue

An audit names every light whose characteristic cannot be read, and counts the faulty notations: the
most common ones first, those that are equally common in the order in which they were met.
-/

namespace Seamark.Catalog

/-- The characteristic of a light cannot be read. -/
def isUnreadable (l : Lighthouse) : Bool :=
  (Characteristic.readExact? l.code).isNone

/-- The lights whose characteristic cannot be read, in order. -/
def unreadable (lights : List Lighthouse) : List Lighthouse :=
  lights.filter isUnreadable

/-- Counts one more of a text: in its place if it was counted before, else at the end. -/
def countOne (text : String) : List (String × Nat) → List (String × Nat)
  | [] => [(text, 1)]
  | entry :: entries =>
    if entry.1 = text then (text, entry.2 + 1) :: entries else entry :: countOne text entries

/-- How often each text comes, in the order in which they first come. -/
def tally (texts : List String) : List (String × Nat) :=
  texts.foldl (fun counts text => countOne text counts) []

/-- The texts that come most often, at most a number of them. -/
def mostCommon (n : Nat) (texts : List String) : List (String × Nat) :=
  ((tally texts).mergeSort fun a b => decide (b.2 ≤ a.2)).take n

/-- The number of notations that an audit ranks. -/
def rankedNotations : Nat := 10

/-- The lines of an audit. -/
def auditLines (lights : List Lighthouse) : List String :=
  let faulty := unreadable lights
  let ranking := (mostCommon rankedNotations (faulty.map (·.code))).map fun entry =>
    "  " ++ Text.padLeft 4 (toString entry.2) ++ "  " ++ entry.1
  faulty.map (fun l => "  " ++ l.name ++ ": " ++ Text.quoted l.code)
    ++ ["", "Checked " ++ toString lights.length ++ " lights, " ++ toString faulty.length
      ++ " unparseable"]
    ++ if faulty.isEmpty then [] else "Most common:" :: ranking

end Seamark.Catalog
