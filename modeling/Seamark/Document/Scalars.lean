import Seamark.Document.Cursor
import Seamark.Document.Error
import Seamark.Text.Letter

/-!
# Scalars in a document

A scalar is written plain, between quotes, or as a block of indented lines. Each form folds line
breaks in its own way: a single break is a space, further ones are kept.
-/

namespace Seamark.Document

/-- What folding makes of a first line break and the further ones after it. -/
def foldedBreaks (first : List Char) (others : List Char) : List Char :=
  if first ≠ ['\n'] then first ++ others else if others.isEmpty then [' '] else others

/-! ### Plain scalars -/

/-- The number of characters ahead that belong to a plain scalar, up to a space, a line break, a
colon with a gap after it or, within brackets, an indicator. -/
def plainLength (flow : Bool) : List Char → Nat
  | [] => 0
  | c :: cs =>
    let follower := cs.head?.getD endMark
    let stops := isGap c
      || (c = ':' && (isGap follower || (flow && [',', '[', ']', '\x7b', '\x7d'].contains follower)))
      || (flow && [',', '?', '[', ']', '\x7b', '\x7d'].contains c)
    if stops then 0 else plainLength flow cs + 1

/-- The line breaks and spaces ahead within a plain scalar: the breaks, and the place after them. It
ends at a marker, and says so. -/
def plainBreaks : Nat → Cursor → List Char × Cursor × Bool
  | 0, c => ([], c, false)
  | fuel + 1, c =>
    if c.peek = ' ' then plainBreaks fuel c.next
    else if isBreak c.peek then
      let (br, c) := c.takeBreak
      if c.atAnyMarker then ([], c, true)
      else
        let (more, c, marker) := plainBreaks fuel c
        (br ++ more, c, marker)
    else ([], c, false)

/-- The gap between two pieces of a plain scalar. -/
structure PlainGap where
  /-- What the gap adds to the scalar; nothing if the scalar ends here. -/
  text : List Char
  /-- The place after the gap. -/
  after : Cursor
  /-- The gap has a line break. -/
  broken : Bool

/-- Reads the gap after a piece of a plain scalar. -/
def plainGap (c : Cursor) : PlainGap :=
  let spaces := c.run (· = ' ')
  let c := c.skipWhile (· = ' ')
  if isBreak c.peek then
    let (br, c) := c.takeBreak
    if c.atAnyMarker then ⟨[], c, true⟩
    else
      let (others, c, marker) := plainBreaks (c.rest.length + 1) c
      if marker then ⟨[], c, true⟩ else ⟨foldedBreaks br others, c, true⟩
  else ⟨spaces, c, false⟩

/-- Reads the pieces of a plain scalar whose lines are indented at least to a column, after the given
gap. The flag tells whether the last gap has a line break. -/
def plainPieces (flow : Bool) (column : Int) (gap : List Char) (broken : Bool) :
    Nat → Cursor → List Char × Cursor × Bool
  | 0, c => ([], c, broken)
  | fuel + 1, c =>
    if c.peek = '#' then ([], c, broken)
    else
      let length := plainLength flow c.rest
      if length = 0 then ([], c, broken)
      else
        let piece := c.rest.take length
        let g := plainGap (c.skip length)
        if g.text.isEmpty || g.after.peek = '#' || (!flow && decide ((g.after.column : Int) < column))
        then (gap ++ piece, g.after, g.broken)
        else
          let (more, c, broken) := plainPieces flow column g.text g.broken fuel g.after
          (gap ++ piece ++ more, c, broken)

/-! ### Quoted scalars -/

/-- The character for a letter after a backslash. -/
def escapeOf? : Char → Option Char
  | '0' => some '\x00' | 'a' => some '\x07' | 'b' => some '\x08' | 't' => some '\t'
  | '\t' => some '\t' | 'n' => some '\n' | 'v' => some '\x0b' | 'f' => some '\x0c'
  | 'r' => some '\r' | 'e' => some '\x1b' | ' ' => some ' ' | '"' => some '"'
  | '\\' => some '\\' | '/' => some '/' | 'N' => some '\u0085' | '_' => some '\u00a0'
  | 'L' => some '\u2028' | 'P' => some '\u2029' | _ => none

/-- The number of hexadecimal digits after a backslash and a letter. -/
def escapeWidth? : Char → Option Nat
  | 'x' => some 2 | 'u' => some 4 | 'U' => some 8 | _ => none

/-- The value of a plain hexadecimal digit. -/
def hexDigit? (c : Char) : Option Nat :=
  if c.isDigit then some (c.toNat - '0'.toNat)
  else if 'a' ≤ c ∧ c ≤ 'f' then some (c.toNat - 'a'.toNat + 10)
  else if 'A' ≤ c ∧ c ≤ 'F' then some (c.toNat - 'A'.toNat + 10)
  else none

/-- The code that so many hexadecimal digits at the start of a text denote. -/
def codeOf? (width : Nat) (cs : List Char) : Option Nat := do
  let digits := cs.take width
  let values ← digits.mapM hexDigit?
  if digits.length = width then some (values.foldl (fun n d => 16 * n + d) 0) else none

/-- The letter that so many hexadecimal digits at a place denote. -/
def escapedLetter (width : Nat) (c : Cursor) : Except ReadError Text.Letter :=
  match codeOf? width c.rest with
  | none => .error (.malformed "a wrong code in an escape")
  | some code =>
    if 0x10ffff < code then .error (.noCharacter code c.index) else .ok (.ofCode code)

/-- The line breaks ahead within a quoted scalar, without the spaces between them. -/
def quotedBreaks : Nat → Cursor → Except ReadError (List Char × Cursor)
  | 0, c => .ok ([], c)
  | fuel + 1, c =>
    if c.atAnyMarker then .error (.malformed "a document ends within quotes")
    else
      let c := c.skipWhile fun ch => ch = ' ' || ch = '\t'
      if isBreak c.peek then do
        let (br, c) := c.takeBreak
        let (more, c) ← quotedBreaks fuel c
        return (br ++ more, c)
      else .ok ([], c)

/-- Reads a quoted scalar up to and including its closing quote; double quotes allow escapes. -/
def quotedPieces (double : Bool) :
    Nat → Cursor → Except ReadError (List Text.Letter × Cursor)
  | 0, _ => .error (.malformed "unclosed quotes")
  | fuel + 1, c =>
    let quote := if double then '"' else '\''
    let alsoLetters := fun (ls : List Text.Letter) (c : Cursor) => do
      let (more, c) ← quotedPieces double fuel c
      return (ls ++ more, c)
    let also := fun (chars : List Char) => alsoLetters (chars.map .char)
    if c.atEnd then .error (.malformed "unclosed quotes")
    else if !double && c.peek = '\'' && c.ahead 1 = '\'' then also ['\''] (c.skip 2)
    else if c.peek = quote then .ok ([], c.next)
    else if double && c.peek = '\\' then
      let letter := c.ahead 1
      match escapeOf? letter, escapeWidth? letter with
      | some ch, _ => also [ch] (c.skip 2)
      | none, some width => do
        let l ← escapedLetter width (c.skip 2)
        alsoLetters [l] (c.skip (2 + width))
      | none, none =>
        if isBreak letter then do
          let (_, c) := c.next.takeBreak
          let (breaks, c) ← quotedBreaks (c.rest.length + 1) c
          also breaks c
        else .error (.malformed "an unknown escape")
    else if c.peek = ' ' || c.peek = '\t' || isBreak c.peek then
      let isSpace := fun ch => ch = ' ' || ch = '\t'
      let spaces := c.run isSpace
      let c := c.skipWhile isSpace
      if isBreak c.peek then do
        let (br, c) := c.takeBreak
        let (others, c) ← quotedBreaks (c.rest.length + 1) c
        also (foldedBreaks br others) c
      else also spaces c
    else also [c.peek] c.next

/-! ### Block scalars -/

/-- What happens to the line breaks at the end of a block. -/
inductive Chomping where
  /-- They are dropped. -/
  | drop
  /-- One is kept. -/
  | single
  /-- All are kept. -/
  | keep
deriving DecidableEq, Repr

/-- The indicators after the mark of a block: how it ends, and how far it is indented. -/
def blockIndicators (c : Cursor) : Except ReadError (Chomping × Option Nat × Cursor) := do
  let chomp? : Char → Option Chomping := fun ch =>
    if ch = '+' then some .keep else if ch = '-' then some .drop else none
  let digit? : Char → Option Nat := fun ch => if ch.isDigit then some (ch.toNat - '0'.toNat) else none
  let (chomping, indent, c) := match chomp? c.peek, digit? c.peek with
    | some chomping, _ =>
      match digit? c.next.peek with
      | some d => (chomping, some d, c.skip 2)
      | none => (chomping, none, c.next)
    | none, some d =>
      match chomp? c.next.peek with
      | some chomping => (chomping, some d, c.skip 2)
      | none => (.single, some d, c.next)
    | none, none => (.single, none, c)
  if indent = some 0 then throw (.malformed "a block cannot be indented by nothing")
  if c.peek = ' ' || isLineEnd c.peek then return (chomping, indent, c)
  throw (.malformed "a wrong indicator of a block")

/-- Skips the rest of the line of a block's indicators, which may hold a comment only. -/
def skipIndicatorLine (c : Cursor) : Except ReadError Cursor :=
  let c := c.skipWhile (· = ' ')
  let c := if c.peek = '#' then c.skipWhile (!isLineEnd ·) else c
  if isLineEnd c.peek then .ok c.takeBreak.2 else .error (.malformed "text after the indicators of a block")

/-- Skips spaces up to a column. -/
def skipIndent (column : Nat) (c : Cursor) : Cursor :=
  c.skip ((c.run (· = ' ')).length.min (column - c.column))

/-- The line breaks ahead of a line that is indented to a column. -/
def blockBreaks (column : Nat) : Nat → Cursor → List Char × Cursor
  | 0, c => ([], c)
  | fuel + 1, c =>
    let c := skipIndent column c
    if isBreak c.peek then
      let (br, c) := c.takeBreak
      let (more, c) := blockBreaks column fuel c
      (br ++ more, c)
    else ([], c)

/-- The line breaks ahead of the first line of a block, and the deepest indentation among them. -/
def leadingBreaks (deepest : Nat) : Nat → Cursor → List Char × Nat × Cursor
  | 0, c => ([], deepest, c)
  | fuel + 1, c =>
    if c.peek = ' ' then leadingBreaks (max deepest c.next.column) fuel c.next
    else if isBreak c.peek then
      let (br, c) := c.takeBreak
      let (more, deepest, c) := leadingBreaks deepest fuel c
      (br ++ more, deepest, c)
    else ([], deepest, c)

/-- The lines of a block indented to a column: the text so far, the last line break, and the breaks
after it. -/
def blockLines (folded : Bool) (column : Nat) (breaks : List Char) :
    Nat → Cursor → List Char × List Char × List Char × Cursor
  | 0, c => ([], [], breaks, c)
  | fuel + 1, c =>
    if c.column ≠ column || c.atEnd then ([], [], breaks, c)
    else
      let spaced : Char → Bool := fun ch => ch = ' ' || ch = '\t'
      let startsPlain := !spaced c.peek
      let line := c.run (!isLineEnd ·)
      let (br, after) := (c.skipWhile (!isLineEnd ·)).takeBreak
      let (more, after) := blockBreaks column (after.rest.length + 1) after
      if after.column = column && !after.atEnd then
        let joint :=
          if folded && br == ['\n'] && startsPlain && !spaced after.peek then
            if more.isEmpty then [' '] else []
          else br
        let (text, last, tail, after) := blockLines folded column more fuel after
        (breaks ++ line ++ joint ++ text, last, tail, after)
      else (breaks ++ line, br, more, after)

/-- Reads a block after its mark, in a collection indented to the given column (or to none). -/
def blockScalar (folded : Bool) (indent : Int) (c : Cursor) : Except ReadError (List Char × Cursor) := do
  let (chomping, increment, c) ← blockIndicators c
  let c ← skipIndicatorLine c
  let least := (indent + 1).toNat.max 1
  let fuel := c.rest.length + 1
  let (column, breaks, c) := match increment with
    | some n =>
      let column := least + n - 1
      let (breaks, c) := blockBreaks column fuel c
      (column, breaks, c)
    | none =>
      let (breaks, deepest, c) := leadingBreaks 0 fuel c
      (least.max deepest, breaks, c)
  let (text, last, tail, c) := blockLines folded column breaks fuel c
  return match chomping with
    | .drop => (text, c)
    | .single => (text ++ last, c)
    | .keep => (text ++ last ++ tail, c)

end Seamark.Document
