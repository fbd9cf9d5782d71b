import Seamark.Document.Moment.Basic

/-!
# The form of dates and times of day

A date is written as four, two and two digits with dashes between them. With a time of day the month
and the day may have one digit each; a letter or blanks stand before the hour, and a fraction of a
second and an offset may follow. Whether the calendar has such a date does not matter here.
-/

namespace Seamark

/-- A space or a tab. -/
def isSpaceOrTab (c : Char) : Bool := c = ' ' || c = '\t'

/-- The number of the plain digits at the start of a text, which must be at least so many and of
which at most so many are taken, and what follows them. -/
def takeNumber? (least most : Nat) (cs : List Char) : Option (Nat × List Char) :=
  let digits := (cs.takeWhile Char.isDigit).take most
  if least ≤ digits.length then
    some (digits.foldl (fun n c => 10 * n + (c.toNat - '0'.toNat)) 0, cs.drop digits.length)
  else none

/-- What follows a character at the start of a text. -/
def takeMark? (mark : Char) : List Char → Option (List Char)
  | c :: cs => if c = mark then some cs else none
  | [] => none

/-- What follows the mark of a time of day: a letter, or blanks. -/
def takeClockMark? (cs : List Char) : Option (List Char) :=
  match cs with
  | c :: rest =>
    if c = 'T' || c = 't' then some rest
    else if isSpaceOrTab c then some (rest.dropWhile isSpaceOrTab)
    else none
  | [] => none

/-- The microseconds of a fraction of a second, the first six digits of it, and what follows it. -/
def takeFraction (cs : List Char) : Nat × List Char :=
  match cs with
  | '.' :: rest =>
    let digits := (rest.takeWhile Char.isDigit).take 6
    ((digits ++ List.replicate (6 - digits.length) '0').foldl
        (fun n c => 10 * n + (c.toNat - '0'.toNat)) 0,
      rest.dropWhile Char.isDigit)
  | _ => (0, cs)

/-- The minutes of an offset up to the end: hours and perhaps minutes after a sign, or the letter for
none. -/
def offsetOf? (cs : List Char) : Option Int :=
  match cs with
  | ['Z'] => some 0
  | sign :: rest => do
    let (hours, rest) ← takeNumber? 1 2 rest
    let (minutes, rest) ← if rest.isEmpty then some (0, []) else takeMark? ':' rest >>= takeNumber? 2 2
    let size : Int := hours * 60 + minutes
    if !rest.isEmpty then none
    else if sign = '+' then some size
    else if sign = '-' then some (-size)
    else none
  | [] => none

/-- The time of day that a text denotes. -/
def clockOf? (cs : List Char) : Option Clock := do
  let (hour, cs) ← takeNumber? 1 2 cs
  let (minute, cs) ← takeMark? ':' cs >>= takeNumber? 2 2
  let (second, cs) ← takeMark? ':' cs >>= takeNumber? 2 2
  let (microsecond, cs) := takeFraction cs
  let offset ← if cs.isEmpty then some none else (offsetOf? (cs.dropWhile isSpaceOrTab)).map some
  return ⟨hour, minute, second, microsecond, offset⟩

/-- The date, perhaps with a time of day, that a text denotes. Alone, a date has ten characters. -/
def Moment.ofText? (cs : List Char) : Option Moment := do
  let (year, rest) ← takeNumber? 4 4 cs
  let (month, rest) ← takeMark? '-' rest >>= takeNumber? 1 2
  let (day, rest) ← takeMark? '-' rest >>= takeNumber? 1 2
  if rest.isEmpty then
    if cs.length = 10 then some ⟨year, month, day, none⟩ else none
  else
    let clock ← takeClockMark? rest >>= clockOf?
    return ⟨year, month, day, some clock⟩

end Seamark
