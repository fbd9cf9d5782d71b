import Seamark.Document.Error
import Seamark.Document.Plain

/-!
# Drafts of a document

A draft holds the scalars, lists and maps of a document as numbered parts, which refer to each other
and to themselves by number. A map may merge others, whose entries count less than its own. The merges
are done and the scalars are looked at part by part, from the outermost part on and each level before
the next, so of two faults the one that is less deep counts. A draft without a fault has a value.
-/

namespace Seamark.Document

/-- A part of a document, which refers to others by number. -/
inductive Part where
  /-- A scalar, plain or not. -/
  | scalar (text : String) (plain : Bool)
  /-- A list. -/
  | list (items : List Nat)
  /-- A map. -/
  | map (entries : List (Nat × Nat))
deriving DecidableEq, Repr, Inhabited

/-- A document of parts. -/
structure Draft where
  /-- The number of the outermost part. -/
  root : Nat
  /-- The parts by their number. -/
  parts : Array Part
deriving Repr

namespace Part

/-- The scalar that stands where there is nothing. -/
def nothing : Part := scalar "" true

/-- The key of a map that is merged into the map around it. -/
def isMergeMark (p : Part) : Bool := p = scalar "<<" true

/-- What keeps the digits of an integer, without sign and underscores, from being read. -/
def digitFault? : List Char → Option ReadError
  | ['0', 'b'] => some (.noDigits 2)
  | ['0', 'x'] => some (.noDigits 16)
  | cs =>
    let digits := cs.takeWhile Char.isDigit
    if cs.head? ≠ some '0' && decide (maxDigits < digits.length) then
      some (.tooManyDigits ⟨digits.length⟩)
    else none

/-- What keeps a plain scalar from having a value. -/
def plainFault? (text : String) : Option ReadError :=
  match plainKind text with
  | .int => digitFault? (unsigned (text.toList.filter (· ≠ '_')))
  | .float => if (floatOf? text).isNone then some .tooManyGroups else none
  | .moment => ((Moment.ofText? text.toList).bind Moment.fault?).map .noMoment
  | .mark => some (.malformed "a mark without a meaning")
  | _ => none

/-- What keeps a part from having a value, apart from the parts that it refers to. -/
def fault? : Part → Option ReadError
  | scalar text true => plainFault? text
  | _ => none

/-- What keeps a part from being a key. -/
def keyFault? : Part → Option ReadError
  | scalar text plain => fault? (scalar text plain)
  | _ => some (.malformed "a list or a map as a key")

/-- A list or a map. -/
def isCollection : Part → Bool
  | scalar _ _ => false
  | _ => true

/-- The entries of a map. -/
def entries? : Part → Option (List (Nat × Nat))
  | map entries => some entries
  | _ => none

/-- The numbers of the items of a list, or of the values of a map. -/
def inner : Part → List Nat
  | scalar _ _ => []
  | list items => items
  | map entries => entries.map (·.2)

end Part

/-! ### Settling the parts -/

/-- One step of settling the parts of a draft. -/
abbrev Settle := StateT (Array Part) (Except ReadError)

namespace Settle

/-- The part of a number. -/
def part (n : Nat) : Settle Part := return (← get)[n]?.getD .nothing

/-- Replaces the part of a number. -/
def setPart (n : Nat) (p : Part) : Settle Unit := modify fun parts => parts.setIfInBounds n p

/-- The entries of the map of a number; none if it is no map. -/
def entriesOf (n : Nat) : Settle (List (Nat × Nat)) := return ((← part n).entries?).getD []

/-- The first merge among the entries of a map, and the other entries. -/
def takeMerge? (entries : List (Nat × Nat)) : Settle (Option (Nat × List (Nat × Nat))) := do
  let parts ← get
  let isMerge := fun (entry : Nat × Nat) => (parts[entry.1]?.getD .nothing).isMergeMark
  return (entries.find? isMerge).map fun entry => (entry.2, entries.eraseP isMerge)

/-- An equals sign is a text once it is the key of a map. -/
def settleKey (n : Nat) : Settle Unit := do
  if (← part n) = .scalar "=" true then setPart n (.scalar "=" false)

mutual

/-- Puts the entries that a map merges in front of its own. -/
def merge (n : Nat) : Nat → Settle Unit
  | 0 => pure ()
  | fuel + 1 => do
    let merged ← takeMerges n fuel
    let own ← entriesOf n
    own.forM fun entry => settleKey entry.1
    setPart n (.map (merged ++ own))

/-- Takes the merges out of a map one after another, and gives the entries that it merges. -/
def takeMerges (n : Nat) : Nat → Settle (List (Nat × Nat))
  | 0 => return []
  | fuel + 1 => do
    match ← takeMerge? (← entriesOf n) with
    | none => return []
    | some (source, rest) =>
      setPart n (.map rest)
      let merged ← mergedEntries source fuel
      return merged ++ (← takeMerges n fuel)

/-- The entries that are merged from a part: those of a map, or those of a list of maps, the last map
first. -/
def mergedEntries (source : Nat) : Nat → Settle (List (Nat × Nat))
  | 0 => return []
  | fuel + 1 => do
    match ← part source with
    | .list items => return (← itemEntries items fuel).reverse.flatten
    | _ => mapEntries source fuel

/-- The entries that are merged from each item of a list. -/
def itemEntries (items : List Nat) : Nat → Settle (List (List (Nat × Nat)))
  | 0 => return []
  | fuel + 1 => do
    match items with
    | [] => return []
    | n :: ns => return (← mapEntries n fuel) :: (← itemEntries ns fuel)

/-- The entries that are merged from a map, after its own merges. -/
def mapEntries (source : Nat) : Nat → Settle (List (Nat × Nat))
  | 0 => return []
  | fuel + 1 => do
    if ((← part source).entries?).isNone then throw (.malformed "only maps can be merged")
    merge source fuel
    entriesOf source

end

/-- Refuses the first item of a list, or the first key or value of a map, that has no value. -/
def check (n : Nat) : Settle Unit := do
  let parts ← get
  let faultOf := fun (m : Nat) => (parts[m]?.getD .nothing).fault?
  let keyFaultOf := fun (m : Nat) => (parts[m]?.getD .nothing).keyFault?
  let fault := match ← part n with
    | .scalar _ _ => none
    | .list items => items.findSome? faultOf
    | .map entries => entries.findSome? fun entry => (keyFaultOf entry.1).or (faultOf entry.2)
  if let some cause := fault then throw cause

/-- Settles the lists and maps of a queue, and after them those that they refer to, each once. -/
def settle (mergeSteps : Nat) (seen : List Nat) : List Nat → Nat → Settle Unit
  | [], _ | _, 0 => pure ()
  | n :: queue, fuel + 1 => do
    if ((← part n).entries?).isSome then merge n mergeSteps
    check n
    let parts ← get
    let new := (← part n).inner.eraseDups.filter fun m =>
      (parts[m]?.getD .nothing).isCollection && !seen.contains m
    settle mergeSteps (seen ++ new) (queue ++ new) fuel

end Settle

namespace Draft

/-- A number of steps in which all merges can be done: each takes one entry away, and goes through one
list at most. No more entries than parts are in one map. -/
def mergeSteps (d : Draft) : Nat :=
  let size := d.parts.foldl (fun n part => n + part.inner.length) 0
  (size + 4) * (size + 4)

/-- The draft with all merges done, if nothing keeps it from having a value. -/
def settled (d : Draft) : Except ReadError Draft := do
  if let some cause := (d.parts[d.root]?.getD .nothing).fault? then throw cause
  let (_, parts) ← (Settle.settle d.mergeSteps [d.root] [d.root] (d.parts.size + 1)).run d.parts
  return { d with parts := parts }

/-! ### The value of a draft -/

/-- Two keys of a map are the same: they are equal, or both no number. -/
def sameKey : Value → Value → Bool
  | .float x, .float y => x == y || (x.isNaN && y.isNaN)
  | v, w => v.same w

/-- Entries with one more: the value of an equal key is replaced. -/
def addEntry (entries : List (Value × Value)) (key value : Value) : List (Value × Value) :=
  if entries.any fun entry => sameKey entry.1 key then
    entries.map fun entry => if sameKey entry.1 key then (entry.1, value) else entry
  else entries ++ [(key, value)]

/-- The entries of a map in the order in which they were read; of equal keys the last value counts. -/
def distinctEntries (entries : List (Value × Value)) : List (Value × Value) :=
  entries.foldl (fun done entry => addEntry done entry.1 entry.2) []

/-- A list or a map with its number, if something within it is met again. -/
def numbered (n : Nat) (v : Value) : Value := if v.meetsAgain then .loop n v else v

/-- The value of a part, within the parts of the given numbers. -/
def valueWithin (parts : Array Part) (around : List Nat) : Nat → Nat → Value
  | 0, _ => .null
  | fuel + 1, n =>
    let inner := valueWithin parts (n :: around) fuel
    match parts[n]?.getD .nothing with
    | .scalar text plain => if plain then plainValue text else .text text
    | .list items =>
      if around.contains n then .again n false else numbered n (.list (items.map inner))
    | .map entries =>
      if around.contains n then .again n true
      else numbered n (.map (distinctEntries (entries.map fun e => (inner e.1, inner e.2))))

/-- The value of a settled draft. Parts are not nested deeper than there are parts. -/
def value (d : Draft) : Value := valueWithin d.parts [] (d.parts.size + 1) d.root

end Draft

end Seamark.Document
