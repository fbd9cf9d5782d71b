/-!
# A place in a text

A cursor stands before the rest of a text and knows its line and column. Past the end it sees an end
mark, a character that no document holds.
-/

namespace Seamark.Document

/-- A place in a text. -/
structure Cursor where
  /-- What is left to read. -/
  rest : List Char
  /-- The line, counted from zero. -/
  line : Nat := 0
  /-- The column, counted from zero. -/
  column : Nat := 0
  /-- How many characters were read. -/
  index : Nat := 0
deriving Repr

/-- The character seen past the end. -/
def endMark : Char := '\x00'

/-- A character that ends a line. -/
def isBreak (c : Char) : Bool :=
  c = '\n' || c = '\u0085' || c = '\u2028' || c = '\u2029'

/-- A character that ends a line, or the end of the text. -/
def isLineEnd (c : Char) : Bool := isBreak c || c = endMark

/-- A space, a tab, or the end of a line or of the text. -/
def isGap (c : Char) : Bool := c = ' ' || c = '\t' || isLineEnd c

namespace Cursor

/-- The character some places ahead. -/
def ahead (c : Cursor) (n : Nat) : Char := (c.rest[n]?).getD endMark

/-- The next character. -/
def peek (c : Cursor) : Char := c.ahead 0

/-- Nothing is left to read. -/
def atEnd (c : Cursor) : Bool := c.rest.isEmpty

/-- The place after the next character. -/
def next (c : Cursor) : Cursor :=
  match c.rest with
  | [] => c
  | ch :: rest =>
    if isBreak ch then { rest := rest, line := c.line + 1, column := 0, index := c.index + 1 }
    else if ch = '\ufeff' then { c with rest := rest, index := c.index + 1 }
    else { c with rest := rest, column := c.column + 1, index := c.index + 1 }

/-- The place after a number of characters. -/
def skip (c : Cursor) : Nat → Cursor
  | 0 => c
  | n + 1 => c.next.skip n

/-- The characters ahead for which a test holds. -/
def run (c : Cursor) (p : Char → Bool) : List Char := c.rest.takeWhile p

/-- The place after the characters ahead for which a test holds. -/
def skipWhile (c : Cursor) (p : Char → Bool) : Cursor := c.skip (c.run p).length

/-- The line break at this place, as it is kept in a text, and the place after it. Nothing if there
is no line break. -/
def takeBreak (c : Cursor) : List Char × Cursor :=
  if c.peek = '\n' || c.peek = '\u0085' then (['\n'], c.next)
  else if isBreak c.peek then ([c.peek], c.next)
  else ([], c)

/-- A line starts here with three characters of the given kind that mark where a document starts or
ends. -/
def atMarker (c : Cursor) (ch : Char) : Bool :=
  c.ahead 0 = ch && c.ahead 1 = ch && c.ahead 2 = ch && isGap (c.ahead 3)

/-- A line starts here that marks the start or the end of a document. -/
def atAnyMarker (c : Cursor) : Bool := c.atMarker '-' || c.atMarker '.'

end Cursor

end Seamark.Document
