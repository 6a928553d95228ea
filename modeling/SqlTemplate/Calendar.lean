import SqlTemplate.Number.Digits

/-! Dates and times of the proleptic Gregorian calendar. A date is a count of days, so every
count is a date and no date has two forms; year, month and day are a view of it. -/

namespace SqlTemplate

open Number

/-- A date, as the number of days since 2000-01-01. -/
structure Date where
  dayNumber : Int
deriving DecidableEq, Repr

/-- A time of some day without a zone. In a leap second `nanosecond` is at least `10 ^ 9`. -/
structure Timestamp where
  date : Date
  secondOfDay : Nat
  nanosecond : Nat
deriving DecidableEq, Repr

namespace Date

/-- The days from 0000-03-01, where the cycle of 400 years begins, to 2000-01-01. -/
def cycleOffset : Int := 730425

/-- The date with the given year, month and day. Years are counted from March, so that a
leap day is the last day of its year. -/
def ofCivil (year : Int) (month day : Nat) : Date :=
  let year := if month ≤ 2 then year - 1 else year
  let cycle := year / 400
  let yearOfCycle := year % 400
  let dayOfYear : Int := (153 * ((month + 9) % 12) + 2) / 5 + day - 1
  let dayOfCycle := yearOfCycle * 365 + yearOfCycle / 4 - yearOfCycle / 100 + dayOfYear
  ⟨cycle * 146097 + dayOfCycle - cycleOffset⟩

/-- Year, month and day of a date. -/
def civil (d : Date) : Int × Nat × Nat :=
  let n := d.dayNumber + cycleOffset
  let cycle := n / 146097
  let dayOfCycle := n % 146097
  let yearOfCycle :=
    (dayOfCycle - dayOfCycle / 1460 + dayOfCycle / 36524 - dayOfCycle / 146096) / 365
  let dayOfYear := dayOfCycle - (365 * yearOfCycle + yearOfCycle / 4 - yearOfCycle / 100)
  let marchMonth := (5 * dayOfYear + 2) / 153
  let day := dayOfYear - (153 * marchMonth + 2) / 5 + 1
  let month := (marchMonth + 2) % 12 + 1
  let year := yearOfCycle + cycle * 400
  (if month ≤ 2 then year + 1 else year, month.toNat, day.toNat)

/-- A year has at least four digits; beyond 9999 it has a plus sign. -/
def yearText (year : Int) : String :=
  if year < 0 then "-" ++ padded 4 year.natAbs
  else if 9999 < year then "+" ++ padded 4 year.natAbs
  else padded 4 year.natAbs

def text (d : Date) : String :=
  let (year, month, day) := d.civil
  yearText year ++ "-" ++ padded 2 month ++ "-" ++ padded 2 day

end Date

namespace Timestamp

/-- The timestamp at the given time of day. -/
def ofCivil (date : Date) (hour minute second nanosecond : Nat) : Timestamp :=
  ⟨date, hour * 3600 + minute * 60 + second, nanosecond⟩

/-- The timestamp so many seconds after 1970-01-01 00:00. -/
def ofUnixSeconds (n : Int) : Timestamp :=
  ⟨⟨n / 86400 - 10957⟩, (n % 86400).toNat, 0⟩

/-- Hour, minute and second of the day. -/
def clock (t : Timestamp) : Nat × Nat × Nat :=
  (t.secondOfDay / 3600, t.secondOfDay / 60 % 60, t.secondOfDay % 60)

/-- Date and time to the microsecond; a leap second is the second 60. -/
def text (t : Timestamp) : String :=
  let (hour, minute, second) := t.clock
  t.date.text ++ " " ++ padded 2 hour ++ ":" ++ padded 2 minute ++ ":" ++
    padded 2 (second + t.nanosecond / 1000000000) ++ "." ++
    padded 6 (t.nanosecond % 1000000000 / 1000)

/-- The microseconds since 2000-01-01 00:00, a fraction of one dropped. -/
def microseconds (t : Timestamp) : Int :=
  ((t.date.dayNumber * 86400 + t.secondOfDay) * 1000000000 + t.nanosecond).tdiv 1000

end Timestamp

example : (Date.ofCivil 2000 1 1).dayNumber = 0 := rfl
example : (Date.ofCivil 2000 2 29).civil = (2000, 2, 29) := rfl
example : (Date.ofCivil (-1) 12 31).civil = (-1, 12, 31) := rfl
example : (Date.ofCivil 1900 3 1).dayNumber - (Date.ofCivil 1900 2 28).dayNumber = 1 := rfl

end SqlTemplate
