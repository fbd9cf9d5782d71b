import Seamark.Catalog.Basic
import Seamark.Document.Printer

/-!
# Writing a catalogue

A catalogue is written as a map with one key, `lighthouses`. A light without a range or without arcs
has no key for it.
-/

namespace Seamark

/-- The value of an arc. -/
def Arc.toValue (a : Arc) : Value :=
  .map [(.text "start", .float a.start), (.text "end", .float a.finish),
    (.text "color", .text a.color)]

/-- The value of a light. -/
def Lighthouse.toValue (l : Lighthouse) : Value :=
  let position : List (Value × Value) :=
    [(.text "name", .text l.name), (.text "lat", .float l.lat), (.text "lon", .float l.lon),
      (.text "code", .text l.code)]
  let range := match l.range with
    | .null => []
    | v => [(.text "range", v)]
  let arcs := if l.arcs.isEmpty then [] else [(.text "arcs", .list (l.arcs.map Arc.toValue))]
  .map (position ++ range ++ arcs)

namespace Catalog

/-- The entries of the document of a catalogue. -/
def toEntries (lights : List Lighthouse) : List (Value × Value) :=
  [(.text "lighthouses", .list (lights.map Lighthouse.toValue))]

/-- The document of a catalogue. -/
def toValue (lights : List Lighthouse) : Value :=
  .map (toEntries lights)

/-- The text of a catalogue; letters of every script stand as they are. -/
def render (lights : List Lighthouse) : String :=
  Document.render true (toEntries lights)

end Catalog

end Seamark
