import Marktex.Text.Quoted

/-!
# Dates and times

The dates, times of day and points in time that a settings file can hold, and the two ways in which
they are written out: plainly, and with the name of their type where they stand inside of another
value.
-/

namespace Marktex.Toml

/-- A day of the calendar. -/
structure Date where
  year : Nat
  month : Nat
  day : Nat
  deriving DecidableEq, Repr

/-- A time of day. -/
structure Time where
  hour : Nat
  minute : Nat
  second : Nat
  /-- Millionths of a second. -/
  micro : Nat
  deriving DecidableEq, Repr

/-- A date, a time of day, or both. -/
inductive Moment where
  | date (date : Date)
  | time (time : Time)
  /-- A point in time, with its distance from universal time in minutes if that is known. -/
  | dateTime (date : Date) (time : Time) (offset : Option Int)
  deriving DecidableEq, Repr

/-- The decimal digits of `n` with zeros in front up to `width` digits. -/
def padded (width n : Nat) : Text :=
  let digits := Nat.toDigits 10 n
  List.replicate (width - digits.length) '0' ++ digits

namespace Date

/-- Whether a year has a leap day. -/
def isLeap (year : Nat) : Bool :=
  year % 4 = 0 && (year % 100 ≠ 0 || year % 400 = 0)

/-- The number of days of a month. -/
def daysIn (year month : Nat) : Nat :=
  if month = 2 then (if isLeap year then 29 else 28)
  else if month = 4 ∨ month = 6 ∨ month = 9 ∨ month = 11 then 30
  else 31

/-- Whether the calendar has the day; the first year is year 1. -/
def isValid (d : Date) : Bool :=
  1 ≤ d.year && 1 ≤ d.month && d.month ≤ 12 && 1 ≤ d.day && d.day ≤ daysIn d.year d.month

/-- Year, month and day with dashes between them. -/
def toText (d : Date) : Text :=
  padded 4 d.year ++ '-' :: padded 2 d.month ++ '-' :: padded 2 d.day

/-- The numbers that make up the date. -/
def numbers (d : Date) : List Nat :=
  [d.year, d.month, d.day]

end Date

namespace Time

/-- Hours, minutes and seconds with colons between them, and the fraction if there is one. -/
def toText (t : Time) : Text :=
  padded 2 t.hour ++ ':' :: padded 2 t.minute ++ ':' :: padded 2 t.second ++
    (if t.micro = 0 then [] else '.' :: padded 6 t.micro)

/-- The numbers that make up the time, without zeros at the end for seconds and fraction. -/
def numbers (t : Time) : List Nat :=
  if t.micro ≠ 0 then [t.hour, t.minute, t.second, t.micro]
  else if t.second ≠ 0 then [t.hour, t.minute, t.second]
  else [t.hour, t.minute]

end Time

namespace Moment

/-- A distance from universal time: a sign, hours and minutes. -/
def offsetText (minutes : Int) : Text :=
  (if minutes < 0 then '-' else '+') ::
    padded 2 (minutes.natAbs / 60) ++ ':' :: padded 2 (minutes.natAbs % 60)

/-- The moment, written plainly. -/
def toText : Moment → Text
  | .date d => d.toText
  | .time t => t.toText
  | .dateTime d t offset => d.toText ++ ' ' :: t.toText ++ (offset.map offsetText).getD []

/-- Numbers with commas between them. -/
def listed (numbers : List Nat) : Text :=
  Text.join ", ".toList (numbers.map (Nat.toDigits 10))

/-- A distance from universal time with the name of its type. -/
def shownOffset (minutes : Int) : Text :=
  let seconds := minutes * 60
  if minutes = 0 then "datetime.timezone.utc".toList
  else
    "datetime.timezone(datetime.timedelta(".toList ++
      (if minutes < 0 then "days=-1, seconds=".toList ++ Text.ofInt (seconds + 86400)
       else "seconds=".toList ++ Text.ofInt seconds) ++ "))".toList

/-- The moment with the name of its type. -/
def shown : Moment → Text
  | .date d => "datetime.date(".toList ++ listed d.numbers ++ [')']
  | .time t => "datetime.time(".toList ++ listed t.numbers ++ [')']
  | .dateTime d t offset =>
    "datetime.datetime(".toList ++ listed (d.numbers ++ t.numbers) ++
      (offset.map fun minutes => ", tzinfo=".toList ++ shownOffset minutes).getD [] ++ [')']

end Moment

end Marktex.Toml
