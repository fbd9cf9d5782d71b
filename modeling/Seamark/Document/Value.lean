import Seamark.Characteristic.Groups
import Seamark.Decimal.Reading
import Seamark.Decimal.Spelling
import Seamark.Document.Moment.Basic
import Seamark.Text.Quoted

/-!
# Document values

What a document holds: scalars, lists, and maps whose entries keep their order. A list or a map may
hold itself; it is then told by a number. A value can be read as a number or as a text wherever one is
asked for, with set causes of failure.
-/

namespace Seamark

/-- A value in a document. -/
inductive Value where
  /-- Nothing. -/
  | null
  /-- A truth value. -/
  | bool (b : Bool)
  /-- An integer of any size. -/
  | int (n : Int)
  /-- A double. -/
  | float (x : Float)
  /-- A date, perhaps with a time of day. -/
  | moment (m : Moment)
  /-- A text. -/
  | text (s : String)
  /-- Values in order. -/
  | list (items : List Value)
  /-- Keys with their values, in order. -/
  | map (entries : List (Value × Value))
  /-- A list or a map that is met again within itself by this number. -/
  | loop (number : Nat) (whole : Value)
  /-- The list or the map of this number, met again within itself. -/
  | again (number : Nat) (isMap : Bool)
deriving Inhabited

/-- Why a value cannot be taken as a number or as a text. -/
inductive ConversionError where
  /-- The value is not of a kind that numbers are read from. -/
  | notNumeric
  /-- The text does not denote a number. -/
  | badNumber (text : String)
  /-- The integer is larger than every double. -/
  | numberTooLarge
  /-- The integer has more digits than are written out. -/
  | tooManyDigits
deriving DecidableEq, Repr

/-- The text of an error. -/
def ConversionError.message : ConversionError → String
  | notNumeric => "the value is not a number"
  | badNumber text => "could not convert string to float: " ++ Text.quoted text
  | numberTooLarge => "int too large to convert to float"
  | tooManyDigits =>
    "Exceeds the limit (" ++ toString maxDigits
      ++ " digits) for integer string conversion; use sys.set_int_max_str_digits() to increase the limit"

namespace Value

/-- A value that counts as nothing given: null, false, a zero, or something empty. -/
def isNothing : Value → Bool
  | null => true
  | bool b => !b
  | int n => n = 0
  | float x => x == 0.0
  | text s => s = ""
  | list items => items.isEmpty
  | map entries => entries.isEmpty
  | loop _ v => v.isNothing
  | moment _ | again _ _ => false

/-- The value itself, unless it counts as nothing given. -/
def given? (v : Value) : Option Value :=
  if v.isNothing then none else some v

/-- The value is this text. -/
def isText (s : String) : Value → Bool
  | text t => t = s
  | _ => false

/-- The value of a key among the entries of a map. -/
def field? (entries : List (Value × Value)) (key : String) : Option Value :=
  (entries.find? fun entry => entry.1.isText key).map (·.2)

/-- The value of a key, or null if it is not there. -/
def field (entries : List (Value × Value)) (key : String) : Value :=
  (field? entries key).getD null

mutual

/-- The value with a list or a map in the place where it is met again. -/
def fill (number : Nat) (whole : Value) : Value → Value
  | again n isMap => if n = number then whole else again n isMap
  | loop n v => if n = number then loop n v else loop n (fill number whole v)
  | list items => list (fillItems number whole items)
  | map entries => map (fillEntries number whole entries)
  | v => v

/-- The items of a list, each filled in. -/
def fillItems (number : Nat) (whole : Value) : List Value → List Value
  | [] => []
  | v :: vs => fill number whole v :: fillItems number whole vs

/-- The entries of a map, the value of each filled in. -/
def fillEntries (number : Nat) (whole : Value) : List (Value × Value) → List (Value × Value)
  | [] => []
  | (k, v) :: rest => (k, fill number whole v) :: fillEntries number whole rest

end

mutual

/-- A list or a map is met again in the value. -/
def meetsAgain : Value → Bool
  | again _ _ => true
  | loop _ v => meetsAgain v
  | list items => itemsMeetAgain items
  | map entries => entriesMeetAgain entries
  | _ => false

/-- A list or a map is met again in one of the items. -/
def itemsMeetAgain : List Value → Bool
  | [] => false
  | v :: vs => meetsAgain v || itemsMeetAgain vs

/-- A list or a map is met again in the value of one of the entries. -/
def entriesMeetAgain : List (Value × Value) → Bool
  | [] => false
  | (_, v) :: rest => meetsAgain v || entriesMeetAgain rest

end

/-- The entries of a map. In those of a map that holds itself, the map stands where it is met
again. -/
def entries? : Value → Option (List (Value × Value))
  | map entries => some entries
  | loop n (map entries) => some (fillEntries n (loop n (map entries)) entries)
  | _ => none

/-- The values that going through a value gives: the items of a list, the keys of a map, the
characters of a text. In the items of a list that holds itself, the list stands where it is met
again. -/
def elements? : Value → Option (List Value)
  | list items => some items
  | loop n (list items) => some (fillItems n (loop n (list items)) items)
  | map entries | loop _ (map entries) => some (entries.map (·.1))
  | text s => some (s.toList.map fun c => text c.toString)
  | _ => none

/-- An integer or a double. -/
def isNumber : Value → Bool
  | int _ | float _ => true
  | _ => false

/-- An integer as a double. -/
def floatOfInt? (n : Int) : Option Float :=
  let size := Decimal.toFloat ⟨n.natAbs, 0⟩
  if isFinite size then some (if n < 0 then -size else size) else none

/-- The value as a double. -/
def toFloat : Value → Except ConversionError Float
  | bool b => .ok (if b then 1.0 else 0.0)
  | float x => .ok x
  | int n =>
    match floatOfInt? n with
    | some x => .ok x
    | none => .error .numberTooLarge
  | text s =>
    match Decimal.readFloat? s with
    | some x => .ok x
    | none => .error (.badNumber s)
  | _ => .error .notNumeric

/-- The digits of an integer, unless there are too many of them. -/
def intText (n : Int) : Except ConversionError String :=
  if tenTo maxDigits ≤ n.natAbs then .error .tooManyDigits else .ok (toString n)

/-- What is written for a list or a map that is met again within itself. -/
def againText (isMap : Bool) : String := if isMap then "\x7b...\x7d" else "[...]"

/-- The value is a map. -/
def isMap : Value → Bool
  | map _ => true
  | _ => false

mutual

/-- The value as it is written inside a list or a map: texts are quoted. The numbers are those of the
lists and maps around it. -/
def literalWithin (around : List Nat) : Value → Except ConversionError String
  | null => .ok "None"
  | bool b => .ok (if b then "True" else "False")
  | int n => intText n
  | float x => .ok (Spelling.plain.write x)
  | moment m => .ok m.literal
  | text s => .ok (Text.quoted s)
  | list items => do return "[" ++ ", ".intercalate (← literalsWithin around items) ++ "]"
  | map entries => do
    return "\x7b" ++ ", ".intercalate (← entryLiteralsWithin around entries) ++ "\x7d"
  | loop n v =>
    if around.contains n then .ok (againText v.isMap) else literalWithin (n :: around) v
  | again _ isMap => .ok (againText isMap)

/-- The items of a list as they are written. -/
def literalsWithin (around : List Nat) : List Value → Except ConversionError (List String)
  | [] => .ok []
  | v :: vs => do return (← literalWithin around v) :: (← literalsWithin around vs)

/-- The entries of a map as they are written. -/
def entryLiteralsWithin (around : List Nat) :
    List (Value × Value) → Except ConversionError (List String)
  | [] => .ok []
  | (k, v) :: rest => do
    let key ← literalWithin around k
    let value ← literalWithin around v
    return (key ++ ": " ++ value) :: (← entryLiteralsWithin around rest)

end

/-- The value as it is written inside a list or a map. -/
def literal (v : Value) : Except ConversionError String := v.literalWithin []

/-- The value as a text: a text as it is, a moment in its own form, anything else as it is written in
a list. -/
def toText : Value → Except ConversionError String
  | text s => .ok s
  | moment m => .ok m.text
  | v => v.literal

/-- The value as a number, if it is one or a truth value. -/
def numeric? : Value → Option (Int ⊕ Float)
  | bool b => some (.inl (if b then 1 else 0))
  | int n => some (.inl n)
  | float x => some (.inr x)
  | _ => none

/-- An integer and a double are equal: the double is finite and has exactly this value. -/
def intEqualsFloat (n : Int) (x : Float) : Bool :=
  match doubleShape x with
  | .finite negative b =>
    let size := if negative then -(b.ratio.1 : Int) else b.ratio.1
    n * b.ratio.2 == size
  | _ => false

/-- Two numbers are equal in value. -/
def sameNumber : Int ⊕ Float → Int ⊕ Float → Bool
  | .inl a, .inl b => a == b
  | .inl a, .inr y => intEqualsFloat a y
  | .inr x, .inl b => intEqualsFloat b x
  | .inr x, .inr y => x == y

mutual

/-- Two values are equal: numbers and truth values by their value, lists item by item, maps entry by
entry in any order. One that holds itself is equal to none. -/
def same : Value → Value → Bool
  | null, null => true
  | text s, text t => s == t
  | moment m, moment n => m.same n
  | list xs, list ys => sameItems xs ys
  | map xs, map ys => xs.length == ys.length && sameEntries xs ys
  | v, w =>
    match v.numeric?, w.numeric? with
    | some a, some b => sameNumber a b
    | _, _ => false

/-- Two lists are equal item by item. -/
def sameItems : List Value → List Value → Bool
  | [], [] => true
  | x :: xs, y :: ys => same x y && sameItems xs ys
  | _, _ => false

/-- Every entry of the first list is equal to one of the second. -/
def sameEntries : List (Value × Value) → List (Value × Value) → Bool
  | [], _ => true
  | (k, v) :: rest, ys => ys.any (fun entry => same k entry.1 && same v entry.2) && sameEntries rest ys

end

end Value

end Seamark
