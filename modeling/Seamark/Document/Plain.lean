import Seamark.Document.Cursor
import Seamark.Document.Moment.Reading
import Seamark.Document.Value

/-!
# Plain scalars

A scalar without quotes may stand for a truth value, a number or nothing. Which spellings do is set
by a short list of forms; every other plain scalar is a text.
-/

namespace Seamark.Document

/-- What a plain scalar can stand for. -/
inductive PlainKind where
  /-- A truth value. -/
  | truth (b : Bool)
  /-- A double. -/
  | float
  /-- An integer. -/
  | int
  /-- Nothing. -/
  | null
  /-- A date, perhaps with a time of day. -/
  | moment
  /-- A mark with a meaning of its own that no value has. -/
  | mark
  /-- A text. -/
  | text
deriving DecidableEq, Repr

/-- Cuts a text where the characters for which a test holds end. -/
def split (p : Char → Bool) (cs : List Char) : List Char × List Char :=
  (cs.takeWhile p, cs.dropWhile p)

/-- A plain digit or an underscore. -/
def isDigitOrUnderscore (c : Char) : Bool := c.isDigit || c = '_'

/-- The text without a sign in front. -/
def unsigned (cs : List Char) : List Char :=
  match cs with
  | c :: rest => if c = '-' || c = '+' then rest else cs
  | [] => cs

/-- Groups of one or two digits below sixty, each after a colon, up to the end: at least one. -/
def isSexagesimalTail : List Char → Bool
  | ':' :: a :: b :: rest =>
    if b = ':' then a.isDigit && isSexagesimalTail (b :: rest)
    else a.isDigit && a < '6' && b.isDigit && (rest.isEmpty || isSexagesimalTail rest)
  | [':', a] => a.isDigit
  | _ => false

/-- A signed exponent up to the end. -/
def isSignedExponent (cs : List Char) : Bool :=
  match cs with
  | e :: sign :: digits =>
    (e = 'e' || e = 'E') && (sign = '-' || sign = '+') && !digits.isEmpty && digits.all Char.isDigit
  | _ => false

/-- The form of a double: digits, a point, perhaps digits and a signed exponent; a point and digits;
groups of sixty with a point; or a word for infinity or for an undefined number. -/
def isFloatForm (cs : List Char) : Bool :=
  let body := unsigned cs
  let (whole, rest) := split isDigitOrUnderscore body
  let startsWithDigit := (body.head?.map Char.isDigit).getD false
  let decimal := match rest with
    | '.' :: rest =>
      let after := rest.dropWhile isDigitOrUnderscore
      startsWithDigit && (after.isEmpty || isSignedExponent after)
    | _ => false
  let fraction := match cs with
    | '.' :: c :: rest =>
      let after := rest.dropWhile isDigitOrUnderscore
      c.isDigit && (after.isEmpty || isSignedExponent after)
    | _ => false
  let sixty :=
    let (groups, rest) := split (fun c => c.isDigit || c = ':') rest
    startsWithDigit && !whole.isEmpty && isSexagesimalTail groups
      && (match rest with
        | '.' :: rest => rest.all isDigitOrUnderscore
        | _ => false)
  let infinite := [".inf", ".Inf", ".INF"].contains (String.ofList body)
  let undefined := [".nan", ".NaN", ".NAN"].contains (String.ofList cs)
  decimal || fraction || sixty || infinite || undefined

/-- A digit of a base up to sixteen, or an underscore. -/
def isDigitOf (base : Nat) (c : Char) : Bool :=
  c = '_' || (if c.isDigit then c.toNat - '0'.toNat < base
    else base = 16 && (let l := c.toLower; 'a' ≤ l && l ≤ 'f'))

/-- The form of an integer: in base two, eight, ten or sixteen, or in groups of sixty. -/
def isIntForm (cs : List Char) : Bool :=
  match unsigned cs with
  | ['0'] => true
  | '0' :: 'b' :: digits => !digits.isEmpty && digits.all (isDigitOf 2)
  | '0' :: 'x' :: digits => !digits.isEmpty && digits.all (isDigitOf 16)
  | '0' :: digits => digits.all (isDigitOf 8)
  | c :: rest =>
    let after := rest.dropWhile isDigitOrUnderscore
    c.isDigit && (after.isEmpty || isSexagesimalTail after)
  | [] => false

/-- What a plain scalar stands for. -/
def plainKind (s : String) : PlainKind :=
  let cs := s.toList
  if ["yes", "Yes", "YES", "true", "True", "TRUE", "on", "On", "ON"].contains s then .truth true
  else if ["no", "No", "NO", "false", "False", "FALSE", "off", "Off", "OFF"].contains s then
    .truth false
  else if isFloatForm cs then .float
  else if isIntForm cs then .int
  else if s = "<<" then .mark
  else if ["", "~", "null", "Null", "NULL"].contains s then .null
  else if (Moment.ofText? cs).isSome then .moment
  else if ["=", "!", "&", "*"].contains s then .mark
  else .text

/-- The number that groups of sixty denote, the first group counting most. -/
def sexagesimal (groups : List Nat) : Nat := groups.foldl (fun n d => 60 * n + d) 0

/-- The number that digits of a base denote. -/
def digitsIn (base : Nat) (cs : List Char) : Nat :=
  cs.foldl (fun n c =>
    base * n + (if c.isDigit then c.toNat - '0'.toNat else c.toLower.toNat - 'a'.toNat + 10)) 0

/-- The integer of a scalar in the form of an integer. -/
def intOf (s : String) : Int :=
  let cs := s.toList.filter (· ≠ '_')
  let size : Nat := match unsigned cs with
    | '0' :: 'b' :: digits => digitsIn 2 digits
    | '0' :: 'x' :: digits => digitsIn 16 digits
    | '0' :: digits => digitsIn 8 digits
    | digits => sexagesimal ((Text.splitAt ':' digits).map (digitsIn 10))
  if cs.head? = some '-' then -(size : Int) else size

/-- The double of groups of sixty, the last group first. The weights are integers, each rounded to a
double when its group is counted; none if a weight is beyond all doubles. -/
def sexagesimalFloat? (sum : Float) (weight : Nat) : List Float → Option Float
  | [] => some sum
  | g :: groups => do
    let w ← Value.floatOfInt? weight
    sexagesimalFloat? (sum + g * w) (60 * weight) groups

/-- The double of a scalar in the form of a double; none if it has too many groups of sixty. -/
def floatOf? (s : String) : Option Float := do
  let cs := s.toList.filter (· ≠ '_')
  let body := unsigned cs
  let word := String.ofList (body.map Char.toLower)
  let read := fun (part : List Char) => (Decimal.readFloat? (String.ofList part)).getD 0.0
  let size ←
    if word = ".inf" then some (1.0 / 0.0)
    else if word = ".nan" then some (0.0 / 0.0)
    else if body.contains ':' then
      sexagesimalFloat? 0.0 1 ((Text.splitAt ':' body).map read).reverse
    else some (read body)
  return if cs.head? = some '-' then -size else size

/-- The value of a plain scalar; null for a mark, or for a double without a value. -/
def plainValue (s : String) : Value :=
  match plainKind s with
  | .truth b => .bool b
  | .float => ((floatOf? s).map Value.float).getD .null
  | .int => .int (intOf s)
  | .moment =>
    match Moment.ofText? s.toList with
    | some m => .moment m
    | none => .text s
  | .null | .mark => .null
  | .text => .text s

end Seamark.Document
