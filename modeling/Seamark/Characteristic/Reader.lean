import Seamark.Characteristic.Basic
import Seamark.Decimal.Reading
import Seamark.Scalar

/-!
# Reading a light characteristic

The notation is a type, an optional group in parentheses, one colour or more, and an optional period:
`Fl(2+1) W G 10s`. Before it is read, runs of blanks become single spaces and the ends are trimmed.
Words of a type may stand together or apart, letters may have any case, a period may end in `s`.

The reader tries the types one after the other; what follows the type is then read in one way only.
At most one type can succeed, since no type continued by a group or a space is the start of another.
-/

namespace Seamark

namespace Characteristic

open Seamark.Text

/-- The small letter that a letter of the notation stands for. The dotless i and the long s are
taken for their plain forms. -/
def plainLetter (c : Char) : Char :=
  if c = 'ı' then 'i' else if c = 'ſ' then 's' else c.toLower

/-- Takes a word, in any case, from the start of a text. -/
def takeWord? : List Char → List Char → Option (List Char)
  | [], cs => some cs
  | _ :: _, [] => none
  | w :: ws, c :: cs => if plainLetter c = plainLetter w then takeWord? ws cs else none

/-- Takes the words of a type, with at most one space between two of them. -/
def takeWords? : List (List Char) → List Char → Option (List Char)
  | [], cs => some cs
  | [w], cs => takeWord? w cs
  | w :: ws, cs =>
    match takeWord? w cs with
    | none => none
    | some (' ' :: rest) => takeWords? ws rest
    | some rest => takeWords? ws rest

/-- Takes a type from the start of a text. -/
def takeType? (t : LightType) (cs : List Char) : Option (List Char) :=
  takeWords? (t.spelling.map (·.toList)) cs

/-- Takes a group in parentheses: some text without a closing parenthesis. A text that does not
start with a group is left as it is. -/
def takeGroup? : List Char → Option (Option String × List Char)
  | '(' :: cs =>
    let inside := cs.takeWhile (· ≠ ')')
    match cs.dropWhile (· ≠ ')') with
    | ')' :: rest => if inside.isEmpty then none else some (some (String.ofList inside), rest)
    | _ => none
  | cs => some (none, cs)

/-- The canonical token of a colour word. -/
def color? (word : List Char) : Option String :=
  let token := canonicalColor (String.ofList word)
  if word.all (·.toNat < 128) && ["W", "R", "G", "Y", "Am"].contains token then some token else none

/-- The length that a period word denotes: a decimal, then at most the letter s. -/
def period? (word : List Char) : Option Decimal := do
  let (d, rest) ← Decimal.takeDecimal? word
  if rest.map plainLetter = [] ∨ rest.map plainLetter = ['s'] then some d else none

/-- Reads the words after the type and the group: colours, and perhaps a period at the end. -/
def readWords? : List (List Char) → Option (List String × Option Decimal)
  | [] => some ([], none)
  | word :: rest =>
    match color? word with
    | some color => (readWords? rest).map fun (colors, period) => (color :: colors, period)
    | none => if rest.isEmpty then (period? word).map fun d => ([], some d) else none

/-- Reads what follows a type. -/
def readAfterType? (t : LightType) (cs : List Char) : Option (Characteristic Decimal) :=
  match takeGroup? cs with
  | some (group, ' ' :: rest) =>
    match readWords? (splitAt ' ' rest) with
    | some (color :: colors, period) => some ⟨t, group, color :: colors, period⟩
    | _ => none
  | _ => none

/-- Reads a text whose words are separated by single spaces. -/
def readSettled? (cs : List Char) : Option (Characteristic Decimal) :=
  LightType.all.findSome? fun t => (takeType? t cs).bind (readAfterType? t)

/-- Reads a characteristic; `none` if the text is not one. The period is exact. -/
def readExact? (text : String) : Option (Characteristic Decimal) :=
  readSettled? (settle text.toList)

/-- Reads a characteristic with its period in the given numbers. -/
def read? {α : Type} [Scalar α] (text : String) : Option (Characteristic α) :=
  (readExact? text).map (·.map Scalar.ofDecimal)

end Characteristic

end Seamark
