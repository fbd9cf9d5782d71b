import Seamark.Document.Scalars

/-!
# Tokens of a document

A document is cut into tokens. Indentation and the difference between a key and a plain text are
settled here: a key is known only when the colon after it is met, so each place where a key could
start is remembered until then. After that the order of tokens is all that counts. No more of the
text is cut than the next token needs, so that a fault further on does not hide one before it.
-/

namespace Seamark.Document

/-- A token of a document. -/
inductive Token where
  /-- The start of a document is marked. -/
  | documentStart
  /-- The end of a document is marked. -/
  | documentEnd
  /-- The text is over. -/
  | streamEnd
  /-- A list of indented entries starts. -/
  | blockListStart
  /-- A map of indented entries starts. -/
  | blockMapStart
  /-- An indented list or map ends. -/
  | blockEnd
  /-- A list in brackets starts. -/
  | flowListStart
  /-- A list in brackets ends. -/
  | flowListEnd
  /-- A map in brackets starts. -/
  | flowMapStart
  /-- A map in brackets ends. -/
  | flowMapEnd
  /-- An entry of an indented list. -/
  | entry
  /-- A comma between entries in brackets. -/
  | comma
  /-- A key follows. -/
  | key
  /-- A value follows. -/
  | value
  /-- A name for the value that follows. -/
  | anchor (name : String)
  /-- The value of this name. -/
  | alias (name : String)
  /-- A scalar, plain or not. -/
  | scalar (text : String) (plain : Bool)
deriving DecidableEq, Repr

/-- A place where a key may have started. -/
structure PossibleKey where
  /-- The number of tokens before it. -/
  tokens : Nat
  /-- It stands where a key of an indented map must stand. -/
  required : Bool
  /-- The line. -/
  line : Nat
  /-- The column. -/
  column : Nat
  /-- The number of characters before it. -/
  index : Nat
deriving Repr

/-- The state of cutting a text into tokens. -/
structure Lexer where
  /-- The place in the text. -/
  cursor : Cursor
  /-- A number of characters that the text does not exceed. -/
  size : Nat
  /-- The tokens that are cut and not taken yet. -/
  tokens : List Token := []
  /-- The number of tokens that were taken. -/
  taken : Nat := 0
  /-- The text is over. -/
  done : Bool := false
  /-- The place where a key may have started, for each open bracket, innermost first, and at last
  outside of brackets. -/
  keys : List (Option PossibleKey) := [none]
  /-- The column of the innermost indented list or map; `-1` outside of all. -/
  indent : Int := -1
  /-- The columns of the ones around it. -/
  indents : List Int := []
  /-- A key may start here. -/
  keyAllowed : Bool := true

/-- One step of cutting a text into tokens. -/
abbrev Lex := StateT Lexer (Except ReadError)

namespace Lexer

/-- Refuses the text. -/
def refuse {β : Type} (reason : String) : Lex β := throw (.malformed reason)

/-- The place in the text. -/
def here : Lex Cursor := return (← get).cursor

/-- Moves to another place. -/
def goTo (c : Cursor) : Lex Unit := modify fun l => { l with cursor := c }

/-- The number of tokens before the next one that is cut. -/
def count (l : Lexer) : Nat := l.taken + l.tokens.length

/-- Adds a token. -/
def push (t : Token) : Lex Unit := modify fun l => { l with tokens := l.tokens ++ [t] }

/-- Says whether a key may start at the next place. -/
def allowKey (allowed : Bool) : Lex Unit := modify fun l => { l with keyAllowed := allowed }

/-- The place is inside of brackets. -/
def inFlow : Lex Bool := return 1 < (← get).keys.length

/-- The innermost place where a key may have started. -/
def possibleKey : Lex (Option PossibleKey) := return ((← get).keys.head?).join

/-- Sets the innermost place where a key may have started. -/
def setPossibleKey (key : Option PossibleKey) : Lex Unit :=
  modify fun l => { l with keys := key :: l.keys.tail }

/-- Gives up the innermost place where a key may have started. -/
def dropPossibleKey : Lex Unit := do
  if let some key ← possibleKey then
    if key.required then refuse "a key without a colon"
  setPossibleKey none

/-- Remembers that a key may start here, if it may. -/
def notePossibleKey : Lex Unit := do
  let l ← get
  if l.keyAllowed then
    let required := !(← inFlow) && decide (l.indent = (l.cursor.column : Int))
    dropPossibleKey
    setPossibleKey (some
      { tokens := l.count, required := required, line := l.cursor.line,
        column := l.cursor.column, index := l.cursor.index })

/-- A place where a key may have started is out of reach: a key stands on one line and is not longer
than 1024 characters. -/
def isStale (c : Cursor) (key : PossibleKey) : Bool :=
  key.line ≠ c.line || 1024 < c.index - key.index

/-- Gives up the places where a key may have started that are out of reach. -/
def dropStaleKeys : Lex Unit := do
  let l ← get
  if l.keys.any (·.any fun key => isStale l.cursor key && key.required) then
    refuse "a key without a colon"
  set { l with keys := l.keys.map (Option.filter fun key => !isStale l.cursor key) }

/-- Ends the indented lists and maps that are deeper than a column. -/
def closeDeeper (column : Int) : Lex Unit := do
  if !(← inFlow) then
    modify fun l =>
      let columns := l.indent :: l.indents
      let closed := columns.takeWhile (column < ·)
      let left := columns.dropWhile (column < ·)
      { l with
        tokens := l.tokens ++ closed.map fun _ => Token.blockEnd
        indent := left.headD (-1)
        indents := left.tail }

/-- Starts an indented list or map at a column, unless one is open there; tells whether it does. -/
def openAt (column : Nat) : Lex Bool := do
  let l ← get
  if l.indent < (column : Int) then
    set { l with indent := column, indents := l.indent :: l.indents }
    return true
  return false

/-- Skips spaces, comments and line breaks before a token. -/
def skipBlank : Nat → Lex Unit
  | 0 => pure ()
  | fuel + 1 => do
    let c := (← here).skipWhile (· = ' ')
    let c := if c.peek = '#' then c.skipWhile (!isLineEnd ·) else c
    if isBreak c.peek then
      goTo c.takeBreak.2
      if !(← inFlow) then allowKey true
      skipBlank fuel
    else goTo c

/-- A token of one character that opens a bracket. -/
def openBracket (t : Token) : Lex Unit := do
  notePossibleKey
  modify fun l => { l with keys := none :: l.keys }
  allowKey true
  goTo (← here).next
  push t

/-- A token of one character that closes a bracket. -/
def closeBracket (t : Token) : Lex Unit := do
  dropPossibleKey
  if !(← inFlow) then refuse "a closing bracket without an opening one"
  modify fun l => { l with keys := l.keys.tail }
  allowKey false
  goTo (← here).next
  push t

/-- A comma. -/
def comma : Lex Unit := do
  allowKey true
  dropPossibleKey
  goTo (← here).next
  push .comma

/-- The dash of an indented entry. -/
def entry : Lex Unit := do
  if !(← inFlow) then
    if !(← get).keyAllowed then refuse "an entry is not allowed here"
    if ← openAt (← here).column then push .blockListStart
  allowKey true
  dropPossibleKey
  goTo (← here).next
  push .entry

/-- The question mark before a key. -/
def key : Lex Unit := do
  if !(← inFlow) then
    if !(← get).keyAllowed then refuse "a key is not allowed here"
    if ← openAt (← here).column then push .blockMapStart
  allowKey !(← inFlow)
  dropPossibleKey
  goTo (← here).next
  push .key

/-- The colon before a value: what started at the innermost possible place was a key. -/
def value : Lex Unit := do
  match ← possibleKey with
  | some key => do
    setPossibleKey none
    let opened ← if ← inFlow then pure false else openAt key.column
    let added := if opened then [Token.blockMapStart, .key] else [.key]
    modify fun l =>
      let place := key.tokens - l.taken
      { l with tokens := l.tokens.take place ++ added ++ l.tokens.drop place }
    allowKey false
  | none => do
    if !(← inFlow) then
      if !(← get).keyAllowed then refuse "a value is not allowed here"
      if ← openAt (← here).column then push .blockMapStart
    allowKey !(← inFlow)
    dropPossibleKey
  goTo (← here).next
  push .value

/-- A character of the name of an anchor. -/
def isNameCharacter (c : Char) : Bool := c.isAlphanum || c = '-' || c = '_'

/-- The name after an ampersand or an asterisk. -/
def named (token : String → Token) : Lex Unit := do
  notePossibleKey
  allowKey false
  let c := (← here).next
  let name := c.run isNameCharacter
  let c := c.skipWhile isNameCharacter
  let follows := isGap c.peek || ['?', ':', ',', ']', '\x7d', '%', '@', '`'].contains c.peek
  if name.isEmpty || !follows then refuse "a wrong name"
  goTo c
  push (token (String.ofList name))

/-- A marker of the start or the end of a document. -/
def marker (t : Token) : Lex Unit := do
  closeDeeper (-1)
  dropPossibleKey
  allowKey false
  goTo ((← here).skip 3)
  push t

/-- A block of lines. -/
def block (folded : Bool) : Lex Unit := do
  allowKey true
  dropPossibleKey
  let l ← get
  let (text, c) ← blockScalar folded l.indent l.cursor.next
  goTo c
  push (.scalar (Text.ofChars text) false)

/-- A scalar between quotes. -/
def quotedScalar (double : Bool) : Lex Unit := do
  notePossibleKey
  allowKey false
  let c := (← here).next
  let (text, c) ← quotedPieces double ((← get).size + 1) c
  goTo c
  push (.scalar (Text.ofLetters text) false)

/-- A plain scalar. -/
def plainScalar : Lex Unit := do
  notePossibleKey
  let l ← get
  let (text, c, broken) :=
    plainPieces (← inFlow) (l.indent + 1) [] false (l.size + 1) l.cursor
  goTo c
  allowKey broken
  push (.scalar (Text.ofChars text) true)

/-- A plain scalar may start here. -/
def startsPlain (c : Cursor) (flow : Bool) : Bool :=
  let indicators : List Char :=
    ['-', '?', ':', ',', '[', ']', '\x7b', '\x7d', '#', '&', '*', '!', '|', '>', '\'', '"', '%', '@', '`']
  (!isGap c.peek && !indicators.contains c.peek)
    || (!isGap (c.ahead 1) && (c.peek = '-' || (!flow && (c.peek = '?' || c.peek = ':'))))

/-- Cuts the next token. -/
def cut : Lex Unit := do
  skipBlank ((← get).size + 1)
  dropStaleKeys
  let c ← here
  closeDeeper c.column
  let flow ← inFlow
  if c.atEnd then
    closeDeeper (-1)
    dropPossibleKey
    push .streamEnd
    modify fun l => { l with done := true }
  else if c.column = 0 && c.atMarker '-' then marker .documentStart
  else if c.column = 0 && c.atMarker '.' then marker .documentEnd
  else if c.peek = '[' then openBracket .flowListStart
  else if c.peek = '\x7b' then openBracket .flowMapStart
  else if c.peek = ']' then closeBracket .flowListEnd
  else if c.peek = '\x7d' then closeBracket .flowMapEnd
  else if c.peek = ',' then comma
  else if c.peek = '-' && isGap (c.ahead 1) then entry
  else if c.peek = '?' && (flow || isGap (c.ahead 1)) then key
  else if c.peek = ':' && (flow || isGap (c.ahead 1)) then value
  else if c.peek = '*' then named .alias
  else if c.peek = '&' then named .anchor
  else if c.peek = '|' && !flow then block false
  else if c.peek = '>' && !flow then block true
  else if c.peek = '\'' then quotedScalar false
  else if c.peek = '"' then quotedScalar true
  else if startsPlain c flow then plainScalar
  else refuse "no token starts like this"

/-- The next token is not settled yet: there is none, or a key may start at it. -/
def isUnsettled : Lex Bool := do
  if (← get).done then return false
  if (← get).tokens.isEmpty then return true
  dropStaleKeys
  let l ← get
  return l.keys.any (·.any fun key => key.tokens = l.taken)

/-- Cuts tokens until the next one is settled. -/
def settle : Nat → Lex Unit
  | 0 => pure ()
  | fuel + 1 => do
    if ← isUnsettled then
      cut
      settle fuel

/-- The next token. -/
def peek : Lex Token := do
  settle ((← get).size + 2)
  return (← get).tokens.headD .streamEnd

/-- Goes past the next token. -/
def skip : Lex Unit := modify fun l => { l with tokens := l.tokens.tail, taken := l.taken + 1 }

end Lexer

/-- A character that a document may hold. -/
def isAllowed (c : Char) : Bool :=
  let n := c.toNat
  n = 0x09 || n = 0x0a || n = 0x0d || (0x20 ≤ n && n ≤ 0x7e) || n = 0x85
    || (0xa0 ≤ n && n ≤ 0xfffd) || 0x10000 ≤ n

/-- The text with every line break written as a line feed. -/
def unifyBreaks : List Char → List Char
  | [] => []
  | '\r' :: '\n' :: cs => '\n' :: unifyBreaks cs
  | c :: cs => (if c = '\r' then '\n' else c) :: unifyBreaks cs

/-- The state at the start of a text, after the mark of its encoding. -/
def Lexer.start (cs : List Char) : Lexer :=
  match cs with
  | '\ufeff' :: rest => { cursor := { rest := rest, index := 1 }, size := rest.length }
  | _ => { cursor := { rest := cs }, size := cs.length }

end Seamark.Document
