import OfflineSupply.Text.Digit

/-!
# Dates and instants

A date is a day of the proleptic Gregorian calendar in the years 1 to 9999; an instant is a
time of such a day to the microsecond, with or without an offset from universal time.  Both
are made only from fields that name a day and a time.
-/

namespace OfflineSupply

/-- A day of the calendar. -/
structure Date where
  year : Nat
  month : Nat
  day : Nat
  deriving DecidableEq, Repr

/-- A moment, with the distance of its clock from the common one if that is known. -/
structure Instant where
  date : Date
  hour : Nat
  minute : Nat
  second : Nat
  micro : Nat
  /-- Seconds east of universal time, when it is known. -/
  offset : Option Int
  deriving DecidableEq, Repr

namespace Date

/-- Whether a year has a leap day. -/
def isLeap (year : Nat) : Bool :=
  year % 4 = 0 && (year % 100 ≠ 0 || year % 400 = 0)

/-- The number of days of a month. -/
def daysInMonth (year month : Nat) : Nat :=
  if month = 2 then (if isLeap year then 29 else 28)
  else if month = 4 || month = 6 || month = 9 || month = 11 then 30
  else 31

/-- The day that three numbers name. -/
def of? (year month day : Nat) : Option Date :=
  if 1 ≤ year && year ≤ 9999 && 1 ≤ month && month ≤ 12 && 1 ≤ day && day ≤ daysInMonth year month
  then some { year, month, day } else none

/-- The number of days from the first day of the year 1. -/
def dayNumber (d : Date) : Nat :=
  let y := d.year - 1
  let before := y * 365 + y / 4 - y / 100 + y / 400
  let months := (List.range (d.month - 1)).foldl (fun n m => n + daysInMonth d.year (m + 1)) 0
  before + months + (d.day - 1)

/-- Year, month and day joined by hyphens. -/
def text (d : Date) : String :=
  Text.paddedDecimal 4 d.year ++ "-" ++ Text.paddedDecimal 2 d.month ++ "-" ++
    Text.paddedDecimal 2 d.day

end Date

namespace Instant

/-- The instant of a day that four numbers and an offset of less than a day name. -/
def of? (date : Date) (hour minute second micro : Nat) (offset : Option Int) : Option Instant :=
  let near := match offset with
    | none => true
    | some seconds => seconds.natAbs < 86400
  if hour < 24 && minute < 60 && second < 60 && micro < 1000000 && near
  then some { date, hour, minute, second, micro, offset } else none

/-- Microseconds from the start of the year 1, in universal time when the offset is known. -/
def count (i : Instant) : Int :=
  let seconds : Int := i.date.dayNumber * 86400 + i.hour * 3600 + i.minute * 60 + i.second
  (seconds - i.offset.getD 0) * 1000000 + i.micro

/-- Whether two instants are one moment; one with an offset is never one without. -/
def sameMoment (i j : Instant) : Bool :=
  i.offset.isSome == j.offset.isSome && i.count == j.count

/-- Hours and minutes of an offset, with its sign. -/
def offsetText (seconds : Int) : String :=
  let minutes := seconds.natAbs / 60
  (if seconds < 0 then "-" else "+") ++ Text.paddedDecimal 2 (minutes / 60) ++ ":" ++
    Text.paddedDecimal 2 (minutes % 60)

/-- Date and time with a space between them, the fraction of a second only if there is one. -/
def text (i : Instant) : String :=
  i.date.text ++ " " ++ Text.paddedDecimal 2 i.hour ++ ":" ++ Text.paddedDecimal 2 i.minute ++
    ":" ++ Text.paddedDecimal 2 i.second ++
    (if i.micro = 0 then "" else "." ++ Text.paddedDecimal 6 i.micro) ++
    (i.offset.elim "" offsetText)

end Instant

end OfflineSupply
