/-!
# Dates and times of day

A document can hold a date, alone or with a time of day, which may be told apart from the time of
Greenwich by an offset. Months and days follow the Gregorian calendar.
-/

namespace Seamark

/-- A time of day. -/
structure Clock where
  /-- The hour, from 0. -/
  hour : Nat
  /-- The minute, from 0. -/
  minute : Nat
  /-- The second, from 0. -/
  second : Nat
  /-- The microsecond, from 0. -/
  microsecond : Nat
  /-- By how many minutes it is ahead of the time of Greenwich, if that is known. -/
  offset : Option Int
deriving DecidableEq, Repr

/-- A date, perhaps with a time of day. -/
structure Moment where
  /-- The year. -/
  year : Nat
  /-- The month, from 1. -/
  month : Nat
  /-- The day of the month, from 1. -/
  day : Nat
  /-- The time of day. -/
  clock : Option Clock
deriving DecidableEq, Repr

/-- Decimal digits filled up with zeros to a width. -/
def paddedNumber (width n : Nat) : String :=
  let digits := toString n
  "".pushn '0' (width - digits.length) ++ digits

/-- A span of minutes as it is written in a list: whole days, which may be negative, and the seconds
left over, which may not. -/
def spanLiteral (minutes : Int) : String :=
  let days := minutes.fdiv 1440
  let seconds := (minutes - 1440 * days) * 60
  let parts := (if days = 0 then [] else ["days=" ++ toString days])
    ++ (if seconds = 0 then [] else ["seconds=" ++ toString seconds])
  "datetime.timedelta(" ++ (if parts.isEmpty then "0" else ", ".intercalate parts) ++ ")"

/-- What is wrong with a date or a time of day. -/
inductive MomentError where
  /-- The offset is a day or more. -/
  | offset (minutes : Int)
  /-- There is no such year. -/
  | year (year : Nat)
  /-- There is no such month. -/
  | month
  /-- The month has no such day. -/
  | day
  /-- The day has no such hour. -/
  | hour
  /-- The hour has no such minute. -/
  | minute
  /-- The minute has no such second. -/
  | second
deriving DecidableEq, Repr

/-- The text of an error. -/
def MomentError.message : MomentError → String
  | .offset minutes =>
    "offset must be a timedelta strictly between -timedelta(hours=24) and timedelta(hours=24), not "
      ++ spanLiteral minutes ++ "."
  | .year n => "year " ++ toString n ++ " is out of range"
  | .month => "month must be in 1..12"
  | .day => "day is out of range for month"
  | .hour => "hour must be in 0..23"
  | .minute => "minute must be in 0..59"
  | .second => "second must be in 0..59"

/-- A year of 366 days. -/
def isLeapYear (year : Nat) : Bool :=
  year % 4 = 0 && (year % 100 ≠ 0 || year % 400 = 0)

/-- The number of days of a month. -/
def daysInMonth (year month : Nat) : Nat :=
  if month = 2 then if isLeapYear year then 29 else 28
  else if month = 4 || month = 6 || month = 9 || month = 11 then 30 else 31

/-- What is wrong with a time of day. -/
def Clock.fault? (c : Clock) : Option MomentError :=
  if 23 < c.hour then some .hour
  else if 59 < c.minute then some .minute
  else if 59 < c.second then some .second
  else none

namespace Moment

/-- What is wrong with the date. -/
def dateFault? (m : Moment) : Option MomentError :=
  if m.year = 0 then some (.year m.year)
  else if m.month = 0 || 12 < m.month then some .month
  else if m.day = 0 || daysInMonth m.year m.month < m.day then some .day
  else none

/-- What is wrong with the offset. -/
def offsetFault? (m : Moment) : Option MomentError := do
  let minutes ← (← m.clock).offset
  if 1440 ≤ minutes.natAbs then some (.offset minutes) else none

/-- What is wrong: first the offset, then the date, then the time of day. -/
def fault? (m : Moment) : Option MomentError :=
  m.offsetFault?.or (m.dateFault?.or (m.clock.bind Clock.fault?))

/-- The number of days up to the date, from the first day of the year one on. -/
def dayNumber (m : Moment) : Nat :=
  let past := m.year - 1
  let months := (List.range (m.month - 1)).map fun i => daysInMonth m.year (i + 1)
  365 * past + past / 4 - past / 100 + past / 400 + months.foldl (· + ·) 0 + m.day

/-- The microseconds from a fixed day on, by the time of Greenwich if the offset is known. -/
def instant (m : Moment) (c : Clock) : Int :=
  let minutes := (m.dayNumber * 24 + c.hour) * 60 + c.minute - c.offset.getD 0
  (minutes * 60 + c.second) * 1000000 + c.microsecond

/-- Two moments are equal: dates by the calendar, times of day with an offset by their instant. A
date is not equal to a time of day, nor one with an offset to one without. -/
def same (m n : Moment) : Bool :=
  match m.clock, n.clock with
  | none, none => m = n
  | some c, some d => c.offset.isSome == d.offset.isSome && m.instant c == n.instant d
  | _, _ => false

/-- The offset as a text: a sign, hours and minutes. -/
def offsetText (minutes : Int) : String :=
  (if minutes < 0 then "-" else "+") ++ paddedNumber 2 (minutes.natAbs / 60) ++ ":"
    ++ paddedNumber 2 (minutes.natAbs % 60)

/-- The moment as a text, the parts from the year down. -/
def text (m : Moment) : String :=
  let date := paddedNumber 4 m.year ++ "-" ++ paddedNumber 2 m.month ++ "-" ++ paddedNumber 2 m.day
  match m.clock with
  | none => date
  | some c =>
    date ++ " " ++ paddedNumber 2 c.hour ++ ":" ++ paddedNumber 2 c.minute ++ ":"
      ++ paddedNumber 2 c.second
      ++ (if c.microsecond = 0 then "" else "." ++ paddedNumber 6 c.microsecond)
      ++ (c.offset.map offsetText).getD ""

/-- The offset as it is written in a list. -/
def offsetLiteral (minutes : Int) : String :=
  if minutes = 0 then "datetime.timezone.utc"
  else "datetime.timezone(" ++ spanLiteral minutes ++ ")"

/-- The moment as it is written in a list. Seconds and microseconds are left out if they are zero. -/
def literal (m : Moment) : String :=
  let date := [toString m.year, toString m.month, toString m.day]
  match m.clock with
  | none => "datetime.date(" ++ ", ".intercalate date ++ ")"
  | some c =>
    let small := if c.microsecond ≠ 0 then [toString c.second, toString c.microsecond]
      else if c.second ≠ 0 then [toString c.second] else []
    let offset := (c.offset.map fun minutes => "tzinfo=" ++ offsetLiteral minutes).toList
    "datetime.datetime("
      ++ ", ".intercalate (date ++ [toString c.hour, toString c.minute] ++ small ++ offset) ++ ")"

end Moment

end Seamark
