import Seamark.Document.Draft
import Seamark.Document.Token

/-!
# Reading a document

The tokens of a text are put together to the draft of the one document that the text holds, whose
value is the value of the text. A node can have a name by which it is used again, later or within
itself.
-/

namespace Seamark.Document

/-- The state of putting tokens together. -/
structure Assembly where
  /-- The rest of the text. -/
  lexer : Lexer
  /-- The numbers of the named parts so far. -/
  names : List (String × Nat) := []
  /-- The parts so far; those that are not read to their end are empty. -/
  parts : Array Part := #[]

/-- One step of putting tokens together. -/
abbrev Assemble := StateT Assembly (Except ReadError)

namespace Assemble

/-- Refuses the document. -/
def refuse {β : Type} (reason : String) : Assemble β := throw (.malformed reason)

/-- The next token. -/
def peek : Assemble Token := do
  let (t, lexer) ← Lexer.peek.run (← get).lexer
  modify fun a => { a with lexer := lexer }
  return t

/-- Goes past the next token. -/
def skip : Assemble Unit := do
  let (_, lexer) ← Lexer.skip.run (← get).lexer
  modify fun a => { a with lexer := lexer }

/-- Goes past the next token if it is the given one, and tells whether it is. -/
def take (t : Token) : Assemble Bool := do
  if (← peek) = t then
    skip
    return true
  return false

/-- The next token is one of the given ones. -/
def isNext (ts : List Token) : Assemble Bool := return ts.contains (← peek)

/-- Goes past the next token, which must be the given one. -/
def expect (t : Token) : Assemble Unit := do
  if !(← take t) then refuse "another token is expected"

/-- Adds a part, and gives its number. -/
def addPart (p : Part) : Assemble Nat := do
  let number := (← get).parts.size
  modify fun a => { a with parts := a.parts.push p }
  return number

/-- Adds the scalar that stands where there is nothing. -/
def addNothing : Assemble Nat := addPart .nothing

/-- Gives a name to a part, if there is one to give. It must be a new one. -/
def giveName (name : Option String) (n : Nat) : Assemble Unit := do
  if let some name := name then
    if (← get).names.any (·.1 = name) then refuse "a name is given twice"
    modify fun a => { a with names := a.names ++ [(name, n)] }

/-- Adds a scalar and gives it its name. -/
def scalar (name : Option String) (text : String) (plain : Bool) : Assemble Nat := do
  let number ← addPart (.scalar text plain)
  giveName name number
  return number

/-- Adds a list or a map and reads it. Its name is known from its start on. -/
def collection (name : Option String) (read : Assemble Part) : Assemble Nat := do
  let number ← addNothing
  giveName name number
  let part ← read
  modify fun a => { a with parts := a.parts.setIfInBounds number part }
  return number

/-- The name in front of a part. -/
def takeName : Assemble (Option String) := do
  match ← peek with
  | .anchor name => do
    skip
    return some name
  | _ => return none

mutual

/-- Reads a part. Indented lists and maps are allowed if `block` holds, and lists that are not
indented further than their key if `loose` does. A name in front of nothing names an empty scalar. -/
def node (block loose : Bool) : Nat → Assemble Nat
  | 0 => refuse "too deep"
  | fuel + 1 => do
    match ← peek with
    | .alias name => do
      skip
      match (← get).names.find? (·.1 = name) with
      | some (_, n) => return n
      | none => refuse "an unknown name"
    | _ => do
      let name ← takeName
      match ← peek, block, loose with
      | .entry, _, true => collection name (return .list (← looseItems fuel))
      | .scalar text plain, _, _ => do
        skip
        scalar name text plain
      | .flowListStart, _, _ => do
        collection name do
          skip
          return .list (← flowItems true fuel)
      | .flowMapStart, _, _ => do
        collection name do
          skip
          return .map (← flowEntries true fuel)
      | .blockListStart, true, _ => do
        collection name do
          skip
          return .list (← blockItems fuel)
      | .blockMapStart, true, _ => do
        collection name do
          skip
          return .map (← blockEntries fuel)
      | _, _, _ => do
        if name.isNone then refuse "a value is expected"
        scalar name "" true

/-- Reads a part, or nothing if one of the given tokens is next. -/
def nodeUnless (ends : List Token) (block loose : Bool) : Nat → Assemble Nat
  | 0 => refuse "too deep"
  | fuel + 1 => do if ← isNext ends then addNothing else node block loose fuel

/-- The items of an indented list. -/
def blockItems : Nat → Assemble (List Nat)
  | 0 => refuse "too deep"
  | fuel + 1 => do
    if ← take .entry then
      let v ← nodeUnless [.entry, .blockEnd] true false fuel
      return v :: (← blockItems fuel)
    expect .blockEnd
    return []

/-- The items of a list that is not indented further than its key. -/
def looseItems : Nat → Assemble (List Nat)
  | 0 => refuse "too deep"
  | fuel + 1 => do
    if ← take .entry then
      let v ← nodeUnless [.entry, .key, .value, .blockEnd] true false fuel
      return v :: (← looseItems fuel)
    return []

/-- The entries of an indented map. -/
def blockEntries : Nat → Assemble (List (Nat × Nat))
  | 0 => refuse "too deep"
  | fuel + 1 => do
    if ← take .key then
      let k ← nodeUnless [.key, .value, .blockEnd] true true fuel
      let v ←
        if ← take .value then nodeUnless [.key, .value, .blockEnd] true true fuel
        else addNothing
      return (k, v) :: (← blockEntries fuel)
    expect .blockEnd
    return []

/-- The items of a list in brackets; an item may be a single entry of a map. -/
def flowItems (first : Bool) : Nat → Assemble (List Nat)
  | 0 => refuse "too deep"
  | fuel + 1 => do
    if ← take .flowListEnd then return []
    if !first then expect .comma
    if ← take .key then
      let pair ← collection none do
        let k ← nodeUnless [.value, .comma, .flowListEnd] false false fuel
        let v ←
          if ← take .value then nodeUnless [.comma, .flowListEnd] false false fuel
          else addNothing
        return .map [(k, v)]
      return pair :: (← flowItems false fuel)
    if ← take .flowListEnd then return []
    let v ← node false false fuel
    return v :: (← flowItems false fuel)

/-- The entries of a map in brackets. -/
def flowEntries (first : Bool) : Nat → Assemble (List (Nat × Nat))
  | 0 => refuse "too deep"
  | fuel + 1 => do
    if ← take .flowMapEnd then return []
    if !first then expect .comma
    if ← take .key then
      let k ← nodeUnless [.value, .comma, .flowMapEnd] false false fuel
      let v ←
        if ← take .value then nodeUnless [.comma, .flowMapEnd] false false fuel
        else addNothing
      return (k, v) :: (← flowEntries false fuel)
    if ← take .flowMapEnd then return []
    let k ← node false false fuel
    let v ← addNothing
    return (k, v) :: (← flowEntries false fuel)

end

/-- Goes past the marks of the document's end. -/
def skipEnds : Nat → Assemble Unit
  | 0 => pure ()
  | n + 1 => do if ← take .documentEnd then skipEnds n

/-- The one part around a text: an empty scalar if the text holds none. -/
def document (fuel : Nat) : Assemble Nat := do
  if ← take .streamEnd then return (← addNothing)
  let v ←
    if ← take .documentStart then
      nodeUnless [.documentStart, .documentEnd, .streamEnd] true false fuel
    else node true false fuel
  skipEnds (fuel + 1)
  expect .streamEnd
  return v

end Assemble

/-- The number of characters of a text that are taken in before so many are looked at. A text is
taken in piece by piece. -/
def takenIn (count : Nat) : Nat := 8192 + 4096 * ((count - 8192 + 4095) / 4096)

/-- The draft of the document that a text holds. A character that no document holds counts as soon as
its piece of the text is taken in. -/
def draftOf (text : String) : Except ReadError Draft :=
  let cs := unifyBreaks text.toList
  let wrong : Except ReadError Draft := .error (.malformed "a character that a document cannot hold")
  match (Assemble.document (16 * cs.length + 64)).run { lexer := Lexer.start cs } with
  | .error (.noCharacter code index) =>
    if (cs.take (takenIn (index + 8))).all isAllowed then .error (.noCharacter code index) else wrong
  | .error cause => .error cause
  | .ok (root, a) => if cs.all isAllowed then .ok ⟨root, a.parts⟩ else wrong

/-- The value that the text of a file holds; such a text is made of characters only. -/
def read (text : String) : Except ReadError Value := do
  return (← (← draftOf text).settled).value

end Seamark.Document
