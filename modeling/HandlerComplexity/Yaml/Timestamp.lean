import HandlerComplexity.Number.Digits
import HandlerComplexity.Yaml.Cursor

/-!
# Dates and moments in a YAML text

A date is a year, a month and a day. A moment has a time behind it, after a `T` or blanks, and perhaps
the distance from universal time. Only in a moment can month and day be of one digit, unless the text
is marked as a date.

* `Stamp.read?`: the parts of a text that looks like a date or a moment.
* `Stamp.momentOf`: the moment that the parts stand for.
-/

namespace HandlerComplexity.Yaml

/-- The time of a moment as it is written. -/
structure StampTime where
  hour : Nat
  minute : Nat
  second : Nat
  /-- The digits behind the point. -/
  fraction : List Char
  /-- How many minutes the clock is ahead of universal time. -/
  ahead : Option Int

/-- A date as it is written, with the time behind it. -/
structure Stamp where
  date : Date
  /-- Whether month and day have two digits. -/
  isFull : Bool
  time : Option StampTime

namespace Stamp

/-- A number of `least` to `most` digits at the front, and the rest. -/
def digits? (least most : Nat) (cs : List Char) : Option (Nat × List Char) :=
  let ds := (cs.take most).takeWhile Char.isDigit
  if least ≤ ds.length then some (Digits.decimal ds, cs.drop ds.length) else none

/-- Behind a character that must come next. -/
def behind? (c : Char) : List Char → Option (List Char)
  | [] => none
  | d :: cs => if d = c then some cs else none

/-- The distance from universal time that ends a text; nothing is none. -/
def zone? (cs : List Char) : Option (Option Int) :=
  match cs with
  | [] => some none
  | cs =>
    match cs.dropWhile fun c => c == ' ' || c == '\t' with
    | ['Z'] => some (some 0)
    | sign :: cs =>
      if sign = '+' ∨ sign = '-' then do
        let (hours, cs) ← digits? 1 2 cs
        let (minutes, cs) ← match cs with
          | [] => some (0, [])
          | cs => behind? ':' cs >>= digits? 2 2
        if cs.isEmpty then
          let ahead : Int := hours * 60 + minutes
          return some (if sign = '-' then -ahead else ahead)
        else none
      else none
    | [] => none

/-- The time that ends a text. -/
def time? (cs : List Char) : Option StampTime := do
  let (hour, cs) ← digits? 1 2 cs
  let (minute, cs) ← behind? ':' cs >>= digits? 2 2
  let (second, cs) ← behind? ':' cs >>= digits? 2 2
  let (fraction, cs) := match cs with
    | '.' :: cs => Digits.span cs
    | cs => ([], cs)
  let ahead ← zone? cs
  return ⟨hour, minute, second, fraction, ahead⟩

/-- The parts of a text that looks like a date or a moment. One line end behind it does not count. -/
def read? (text : List Char) : Option Stamp := do
  let cs := if text.getLast? = some '\n' then text.dropLast else text
  let (year, cs) ← digits? 4 4 cs
  let monthText ← behind? '-' cs
  let (month, cs) ← digits? 1 2 monthText
  let dayText ← behind? '-' cs
  let (day, cs) ← digits? 1 2 dayText
  let isFull := monthText.length = dayText.length + 3 && dayText.length = cs.length + 2
  match cs with
  | [] => return ⟨⟨year, month, day⟩, isFull, none⟩
  | c :: rest =>
    let time ←
      if c = 'T' ∨ c = 't' then time? rest
      else if c = ' ' ∨ c = '\t' then time? (rest.dropWhile fun c => c == ' ' || c == '\t')
      else none
    return ⟨⟨year, month, day⟩, isFull, some time⟩

/-- Whether a text looks like a date or a moment without being marked as one. -/
def looksLike (text : List Char) : Bool :=
  (read? text).any fun s => s.isFull || s.time.isSome

/-- The microseconds that digits behind a point stand for; further digits are dropped. -/
def microseconds (fraction : List Char) : Nat :=
  let ds := fraction.take 6
  Digits.decimal ds * Nat.pow 10 (6 - ds.length)

/-- The moment of a date and a time. -/
def momentOf (d : Date) (t : StampTime) : Moment :=
  { date := d
    hour := t.hour
    minute := t.minute
    second := t.second
    microsecond := microseconds t.fraction
    ahead := t.ahead }

end Stamp

end HandlerComplexity.Yaml
