/-!
# Dates and moments

A date of the Gregorian calendar, and a moment: a date with a time of day, and perhaps the distance
from universal time at which it was read off the clock.

* `Date.check`, `Moment.check`: what is out of range, if anything is.
* `Moment.same`: whether two moments are one.
* `Moment.text`, `Moment.shown`: a moment for people, and inside a message.
-/

namespace HandlerComplexity

structure Date where
  year : Nat
  month : Nat
  day : Nat
deriving DecidableEq, Repr

structure Moment where
  date : Date
  hour : Nat
  minute : Nat
  second : Nat
  microsecond : Nat
  /-- How many minutes the clock is ahead of universal time, if that is known. -/
  ahead : Option Int
deriving DecidableEq, Repr

/-- What is out of range. -/
inductive CalendarFault
  | year (n : Nat)
  | month
  | day
  | hour
  | minute
  | second
  /-- The distance from universal time is a day or more. -/
  | ahead (minutes : Int)
deriving DecidableEq, Repr

/-! ## The calendar -/

namespace Date

def isLeapYear (year : Nat) : Bool := year % 4 = 0 && (year % 100 ≠ 0 || year % 400 = 0)

def daysInMonth (year month : Nat) : Nat :=
  if month = 2 then if isLeapYear year then 29 else 28
  else if month = 4 || month = 6 || month = 9 || month = 11 then 30
  else 31

/-- The first part of a date that is out of range is reported. -/
def check (d : Date) : Except CalendarFault Unit :=
  if d.year = 0 || 9999 < d.year then .error (.year d.year)
  else if d.month = 0 || 12 < d.month then .error .month
  else if d.day = 0 || daysInMonth d.year d.month < d.day then .error .day
  else .ok ()

/-- The number of days before a year, counted from year one. -/
def daysBeforeYear (year : Nat) : Nat :=
  let y := year - 1
  y * 365 + y / 4 - y / 100 + y / 400

/-- The number of days before a date, counted from year one. -/
def dayNumber (d : Date) : Nat :=
  daysBeforeYear d.year +
    ((List.range' 1 (d.month - 1)).map (daysInMonth d.year)).foldl (· + ·) 0 + (d.day - 1)

end Date

/-! ## Text -/

/-- A number with zeros before it up to a width. -/
def padded (width n : Nat) : String :=
  let digits := toString n
  String.ofList (List.replicate (width - digits.length) '0') ++ digits

namespace Date

def text (d : Date) : String := padded 4 d.year ++ "-" ++ padded 2 d.month ++ "-" ++ padded 2 d.day

/-- The three numbers of a date, in a message. -/
def numbers (d : Date) : String := ", ".intercalate ([d.year, d.month, d.day].map toString)

/-- A date inside a message. -/
def shown (d : Date) : String := "datetime.date(" ++ d.numbers ++ ")"

end Date

/-- A span of minutes inside a message, in days and the seconds that are left. -/
def shownSpan (minutes : Int) : String :=
  let days := minutes.fdiv 1440
  let seconds := minutes.fmod 1440 * 60
  let parts := (if days ≠ 0 then ["days=" ++ toString days] else []) ++
    (if seconds ≠ 0 then ["seconds=" ++ toString seconds] else [])
  "datetime.timedelta(" ++ (if parts.isEmpty then "0" else ", ".intercalate parts) ++ ")"

namespace Moment

/-- The distance from universal time is less than a day. -/
def isNear (minutes : Int) : Bool := minutes.natAbs < 1440

/-- The distance from universal time is looked at first, then the date, then the time. -/
def check (m : Moment) : Except CalendarFault Unit :=
  match m.ahead.filter (!isNear ·) with
  | some minutes => .error (.ahead minutes)
  | none =>
    match m.date.check with
    | .error f => .error f
    | .ok () =>
      if 23 < m.hour then .error .hour
      else if 59 < m.minute then .error .minute
      else if 59 < m.second then .error .second
      else .ok ()

/-- The microseconds from the beginning of year one to what the clock shows. -/
def clock (m : Moment) : Int :=
  (((m.date.dayNumber * 24 + m.hour) * 60 + m.minute) * 60 + m.second : Nat) * 1000000 +
    m.microsecond

/-- Two moments are one if their clocks show the same at the same distance from universal time, or
in universal time. A moment whose distance is known is never one whose distance is not. -/
def same (m n : Moment) : Bool :=
  match m.ahead, n.ahead with
  | none, none => m.clock = n.clock
  | some a, some b => m.clock - a * 60000000 = n.clock - b * 60000000
  | _, _ => false

def text (m : Moment) : String :=
  m.date.text ++ " " ++ padded 2 m.hour ++ ":" ++ padded 2 m.minute ++ ":" ++ padded 2 m.second ++
    (if m.microsecond = 0 then "" else "." ++ padded 6 m.microsecond) ++
    match m.ahead with
    | none => ""
    | some a => (if a < 0 then "-" else "+") ++ padded 2 (a.natAbs / 60) ++ ":" ++
        padded 2 (a.natAbs % 60)

/-- A moment inside a message. Seconds and microseconds are left out from the end while they are
zero. -/
def shown (m : Moment) : String :=
  let fine := if m.microsecond ≠ 0 then [m.second, m.microsecond]
    else if m.second ≠ 0 then [m.second]
    else []
  let zone := match m.ahead with
    | none => ""
    | some 0 => ", tzinfo=datetime.timezone.utc"
    | some a => ", tzinfo=datetime.timezone(" ++ shownSpan a ++ ")"
  "datetime.datetime(" ++ m.date.numbers ++ ", " ++
    ", ".intercalate (([m.hour, m.minute] ++ fine).map toString) ++ zone ++ ")"

end Moment

def CalendarFault.message : CalendarFault → String
  | year n => "year " ++ toString n ++ " is out of range"
  | month => "month must be in 1..12"
  | day => "day is out of range for month"
  | hour => "hour must be in 0..23"
  | minute => "minute must be in 0..59"
  | second => "second must be in 0..59"
  | ahead minutes =>
    "offset must be a timedelta strictly between -timedelta(hours=24) and timedelta(hours=24), not " ++
      shownSpan minutes ++ "."

end HandlerComplexity
