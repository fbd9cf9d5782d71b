import Seamark.Document.Plain
import Seamark.Text.Letter

/-!
# Writing a document

A value is written one entry a line, lists not indented under their key, keys in their order. A text
stands without quotes where it would be read back as this text, otherwise between single quotes, or
between double ones if it holds a character that must be escaped. Lines longer than eighty columns
are broken at a space.
-/

namespace Seamark.Document

/-- What is written so far, and how it stands on its last line. -/
structure Pen where
  /-- The text. -/
  text : String := ""
  /-- The column of the end of the text. -/
  column : Nat := 0
  /-- The text ends in a space or a line break. -/
  spaced : Bool := true
  /-- The last line holds nothing but indentation and marks of entries. -/
  fresh : Bool := true
  /-- Characters beyond the plain alphabet are written as they are. -/
  unicode : Bool

namespace Pen

/-- The widest line that is not broken. -/
def maxWidth : Nat := 80

/-- Writes a text on the line. -/
def put (p : Pen) (s : String) : Pen :=
  { p with text := p.text ++ s, column := p.column + s.length }

/-- Writes a mark, after a space if one is needed. -/
def mark (p : Pen) (s : String) (apart keepsFresh : Bool) : Pen :=
  { p.put (if p.spaced || !apart then s else " " ++ s) with
    spaced := false, fresh := p.fresh && keepsFresh }

/-- Ends the line with a line break. -/
def breakLine (p : Pen) (br : Char) : Pen :=
  { p with text := p.text.push br, column := 0, spaced := true, fresh := true }

/-- Goes to a column, on a new line unless the last one holds only indentation up to there. -/
def indentTo (p : Pen) (indent : Nat) : Pen :=
  let p := if !p.fresh || indent < p.column || (p.column == indent && !p.spaced) then p.breakLine '\n'
    else p
  if p.column < indent then
    { p.put ("".pushn ' ' (indent - p.column)) with spaced := true }
  else p

end Pen

/-- What matters for how a text can be written. -/
structure TextTraits where
  /-- It has an indicator where one cannot stand without quotes. -/
  indicators : Bool := false
  /-- It has a line break. -/
  breaks : Bool := false
  /-- It has a character that must be escaped. -/
  special : Bool := false
  /-- It starts or ends with a space or a line break. -/
  looseEnds : Bool := false
  /-- It has a space right after a line break. -/
  breakSpace : Bool := false
  /-- It has a line break right after a space. -/
  spaceBreak : Bool := false

/-- A character that a document can show without an escape. -/
def isShown (unicode : Bool) (c : Char) : Bool :=
  let n := c.toNat
  c = '\n' || (0x20 ≤ n && n ≤ 0x7e)
    || (unicode && c ≠ '\ufeff'
      && (n = 0x85 || (0xa0 ≤ n && n ≤ 0xfffd) || (0x10000 ≤ n && n < 0x10ffff)))

/-- An indicator that cannot start a text without quotes, given whether a gap follows it. -/
def isLeadingIndicator (c : Char) (gapFollows : Bool) : Bool :=
  ['#', ',', '[', ']', '\x7b', '\x7d', '&', '*', '!', '|', '>', '\'', '"', '%', '@', '`'].contains c
    || ((c = '?' || c = ':' || c = '-') && gapFollows)

/-- Indicators that cannot stand inside a text without quotes: a colon before a gap, a number sign
after one. -/
def hasInnerIndicator (previous : Char) : List Char → Bool
  | [] => false
  | c :: cs =>
    (c = ':' && (cs.head?.map isGap).getD true) || (c = '#' && isGap previous)
      || hasInnerIndicator c cs

/-- A space and a line break stand side by side in this order. -/
def hasPair (p q : Char → Bool) : List Char → Bool
  | a :: b :: cs => (p a && q b) || hasPair p q (b :: cs)
  | _ => false

/-- What matters for how a text that is not empty can be written. -/
def textTraits (unicode : Bool) (cs : List Char) : TextTraits :=
  let isSpace : Char → Bool := (· = ' ')
  let loose : Char → Bool := fun c => isSpace c || isBreak c
  let marker := cs.take 3 = ['-', '-', '-'] || cs.take 3 = ['.', '.', '.']
  { indicators := marker || (match cs with
      | [] => false
      | c :: rest =>
        isLeadingIndicator c ((rest.head?.map isGap).getD true) || hasInnerIndicator c rest)
    breaks := cs.any isBreak
    special := !cs.all (isShown unicode)
    looseEnds := (cs.head?.map loose).getD false || (cs.getLast?.map loose).getD false
    breakSpace := hasPair isBreak isSpace cs
    spaceBreak := hasPair isSpace isBreak cs }

/-- How a text is written. -/
inductive TextStyle where
  /-- Without quotes. -/
  | plain
  /-- Between single quotes. -/
  | single
  /-- Between double quotes. -/
  | double
deriving DecidableEq, Repr

/-- Chooses how a text is written, given whether it would be read back as this text without quotes. -/
def textStyle (unicode asKey readsBack : Bool) (cs : List Char) : TextStyle :=
  if cs.isEmpty then if readsBack && !asKey then .plain else .single
  else
    let t := textTraits unicode cs
    let quoting := t.breakSpace || t.spaceBreak || t.special
    if readsBack && !quoting && !t.indicators && !t.breaks && !t.looseEnds then .plain
    else if !quoting && !(asKey && t.breaks) then .single
    else .double

/-- The runs of a text of characters with the same class. -/
def runs (kind : Char → Nat) : List Char → List (List Char)
  | [] => []
  | c :: cs =>
    match runs kind cs with
    | (d :: ds) :: rest => if kind c = kind d then (c :: d :: ds) :: rest else [c] :: (d :: ds) :: rest
    | rest => [c] :: rest

/-- The class of a character for breaking lines: a space, a line break, or anything else. -/
def lineKind (c : Char) : Nat := if c = ' ' then 1 else if isBreak c then 2 else 0

/-- Writes a text without quotes. A single space past the widest column becomes a line break. -/
def putPlain (indent : Nat) (splits : Bool) (cs : List Char) (p : Pen) : Pen :=
  if cs.isEmpty then p
  else
    let p := if p.spaced then p else p.put " "
    (runs lineKind cs).foldl
      (fun p run =>
        if run = [' '] && decide (Pen.maxWidth < p.column) && splits then
          { p.indentTo indent with spaced := false, fresh := false }
        else p.put (String.ofList run))
      { p with spaced := false, fresh := false }

/-- Writes one run of a text between single quotes; the flags tell whether it is the first and the
last one. -/
def putSingleRun (indent : Nat) (splits isFirst isLast : Bool) (run : List Char) (p : Pen) : Pen :=
  match run with
  | [] => p
  | c :: _ =>
    if c = ' ' then
      if run = [' '] && decide (Pen.maxWidth < p.column) && splits && !isFirst && !isLast then
        p.indentTo indent
      else p.put (String.ofList run)
    else if isBreak c then
      let p := if c = '\n' then p.breakLine '\n' else p
      (run.foldl Pen.breakLine p).indentTo indent
    else p.put (String.join (run.map fun c => if c = '\'' then "''" else c.toString))

/-- Writes the runs of a text between single quotes. -/
def putSingleRuns (indent : Nat) (splits isFirst : Bool) : List (List Char) → Pen → Pen
  | [], p => p
  | run :: rest, p =>
    putSingleRuns indent splits false rest (putSingleRun indent splits isFirst rest.isEmpty run p)

/-- Writes a text between single quotes. -/
def putSingle (indent : Nat) (splits : Bool) (cs : List Char) (p : Pen) : Pen :=
  (putSingleRuns indent splits true (runs lineKind cs) (p.mark "'" true false)).mark "'" false false

/-- A number in sixteens with capital letters, padded with zeros to a width. -/
def hexCapitals (width n : Nat) : String :=
  let digits := (Nat.toDigits 16 n).map Char.toUpper
  String.ofList (List.replicate (width - digits.length) '0' ++ digits)

/-- The letter after a backslash for a character that has one. -/
def escapeLetter? : Char → Option Char
  | '\x00' => some '0' | '\x07' => some 'a' | '\x08' => some 'b' | '\t' => some 't'
  | '\n' => some 'n' | '\x0b' => some 'v' | '\x0c' => some 'f' | '\r' => some 'r'
  | '\x1b' => some 'e' | '"' => some '"' | '\\' => some '\\' | '\u0085' => some 'N'
  | '\u00a0' => some '_' | '\u2028' => some 'L' | '\u2029' => some 'P' | _ => none

/-- A letter stands between double quotes as it is. -/
def isUnescaped (unicode : Bool) : Text.Letter → Bool
  | .half _ => false
  | .char c =>
    let n := c.toNat
    !(['"', '\\', '\u0085', '\u2028', '\u2029', '\ufeff'].contains c)
      && ((0x20 ≤ n && n ≤ 0x7e) || (unicode && 0xa0 ≤ n && n ≤ 0xfffd))

/-- A code as an escape. -/
def codeEscape (n : Nat) : String :=
  if n ≤ 0xff then "\\x" ++ hexCapitals 2 n
  else if n ≤ 0xffff then "\\u" ++ hexCapitals 4 n
  else "\\U" ++ hexCapitals 8 n

/-- The escape of a letter. -/
def escapeText : Text.Letter → String
  | .half place => codeEscape (Text.Letter.half place).code
  | .char c =>
    match escapeLetter? c with
    | some letter => String.ofList ['\\', letter]
    | none => codeEscape c.toNat

/-- A letter is a space. -/
def isSpaceLetter (l : Text.Letter) : Bool := l = .char ' '

/-- The characters of letters that stand as they are. -/
def charText (ls : List Text.Letter) : String :=
  String.ofList (ls.filterMap fun
    | .char c => some c
    | .half _ => none)

/-- Writes the letters of a text between double quotes. `held` are the letters before the rest that
are not written yet, in reverse, and the flag tells whether the text starts here. A line is broken
with a backslash, after an escape or before a space. -/
def putDoubleFrom (indent : Nat) (splits isFirst : Bool) (held : List Text.Letter) :
    List Text.Letter → Pen → Pen
  | [], p => p.put (charText held.reverse)
  | l :: ls, p =>
    let escaped := !isUnescaped p.unicode l
    let (held, p) :=
      if escaped then ([], (p.put (charText held.reverse)).put (escapeText l)) else (held, p)
    let canBreak := !isFirst && !ls.isEmpty && (isSpaceLetter l || escaped || held.isEmpty)
    let reached := if escaped then p.column - 1 else p.column + held.length
    if canBreak && decide (Pen.maxWidth < reached) && splits then
      let p := (p.put (charText held.reverse)).put "\\"
      let p := { p.indentTo indent with spaced := false, fresh := false }
      let next := if escaped then ls.head? else some l
      let p := if next.any isSpaceLetter then p.put "\\" else p
      putDoubleFrom indent splits false (if escaped then [] else [l]) ls p
    else putDoubleFrom indent splits false (if escaped then [] else l :: held) ls p

/-- Writes a text between double quotes. -/
def putDouble (indent : Nat) (splits : Bool) (ls : List Text.Letter) (p : Pen) : Pen :=
  (putDoubleFrom indent splits true [] ls (p.mark "\"" true false)).mark "\"" false false

/-- Writes a scalar. -/
def putScalar (indent : Nat) (asKey readsBack : Bool) (s : String) (p : Pen) : Pen :=
  match Text.chars? s with
  | none => putDouble indent (!asKey) (Text.letters s) p
  | some cs =>
    match textStyle p.unicode asKey readsBack cs with
    | .plain => putPlain indent (!asKey) cs p
    | .single => putSingle indent (!asKey) cs p
    | .double => putDouble indent (!asKey) (Text.letters s) p

/-- How a document writes doubles. -/
def floatSpelling : Spelling := ⟨".nan", ".inf", true⟩

/-- The text of a scalar, and whether it is read back as this scalar without quotes. -/
def scalarText? : Value → Option (String × Bool)
  | .null => some ("null", true)
  | .bool b => some (if b then "true" else "false", true)
  | .int n => some (toString n, true)
  | .float x => some (floatSpelling.write x, true)
  | .moment m => some (m.text, true)
  | .text s => some (s, plainKind s = .text)
  | _ => none

/-- A key that stands on one line before its colon: not empty, without a line break, and not longer
than 122 characters. -/
def isShortKey (v : Value) : Bool :=
  match scalarText? v with
  | some (s, _) => s ≠ "" && !s.toList.any isBreak && Text.width s < 123
  | none => match v with
    | .list items => items.isEmpty
    | .map entries => entries.isEmpty
    | _ => false

mutual

/-- Writes a value in a list or a map indented to a column; `inMap` tells that it is a map. Where a
list or a map is met again within itself, null stands for it. -/
def putValue (inMap : Bool) (indent : Nat) (asKey : Bool) : Value → Pen → Pen
  | .list items, p =>
    if items.isEmpty then (p.mark "[" true false).mark "]" false false
    else putItems (if inMap && !p.fresh then indent else indent + 2) items p
  | .map entries, p =>
    if entries.isEmpty then (p.mark "\x7b" true false).mark "\x7d" false false
    else putEntries (indent + 2) entries p
  | .null, p => putScalar (indent + 2) asKey true "null" p
  | .bool b, p => putScalar (indent + 2) asKey true (if b then "true" else "false") p
  | .int n, p => putScalar (indent + 2) asKey true (toString n) p
  | .float x, p => putScalar (indent + 2) asKey true (floatSpelling.write x) p
  | .moment m, p => putScalar (indent + 2) asKey true m.text p
  | .text s, p => putScalar (indent + 2) asKey (plainKind s = .text) s p
  | .loop _ v, p => putValue inMap indent asKey v p
  | .again _ _, p => putScalar (indent + 2) asKey true "null" p

/-- Writes the items of a list at a column. -/
def putItems (indent : Nat) : List Value → Pen → Pen
  | [], p => p
  | v :: vs, p =>
    putItems indent vs (putValue false indent false v ((p.indentTo indent).mark "-" true true))

/-- Writes the entries of a map at a column. -/
def putEntries (indent : Nat) : List (Value × Value) → Pen → Pen
  | [], p => p
  | (k, v) :: rest, p =>
    let p := p.indentTo indent
    let p :=
      if isShortKey k then (putValue true indent true k p).mark ":" false false
      else
        ((putValue true indent false k (p.mark "?" true true)).indentTo indent).mark ":" true true
    putEntries indent rest (putValue true indent false v p)

end

/-- The text of a document that holds a map. -/
def render (unicode : Bool) (entries : List (Value × Value)) : String :=
  if entries.isEmpty then "\x7b\x7d\n"
  else ((putEntries 0 entries { unicode := unicode }).indentTo 0).text

end Seamark.Document
