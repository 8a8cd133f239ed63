import RegisterMachine.Number.Decimal

/-!
# Calendar

Moments are seconds since the start of 1970; `Date.ofSeconds` finds the day and the time of day in
the Gregorian calendar, and two functions write them. `Date.daysIn` is the length of a month.
-/

namespace RegisterMachine

/-- A day and a time of day. -/
structure Date where
  year : Int
  month : Nat
  day : Nat
  hour : Nat
  minute : Nat
  second : Nat
  deriving DecidableEq, Inhabited

namespace Date

/-- How many days a month has. -/
def daysIn (year month : Nat) : Nat :=
  if month = 2 then
    if year % 4 = 0 ∧ (year % 100 ≠ 0 ∨ year % 400 = 0) then 29 else 28
  else if month = 4 ∨ month = 6 ∨ month = 9 ∨ month = 11 then 30
  else 31

/-- The moment's day and time. Days are counted in eras of 400 years that start on the first of
March, so that a leap day is the last day of its year. -/
def ofSeconds (t : Int) : Date :=
  let days := t.fdiv 86400 + 719468
  let clock := (t.fmod 86400).toNat
  let era := days.fdiv 146097
  let dayOfEra := (days.fmod 146097).toNat
  let yearOfEra := (dayOfEra - dayOfEra / 1460 + dayOfEra / 36524 - dayOfEra / 146096) / 365
  let dayOfYear := dayOfEra - (365 * yearOfEra + yearOfEra / 4 - yearOfEra / 100)
  let shifted := (5 * dayOfYear + 2) / 153
  let month := if shifted < 10 then shifted + 3 else shifted - 9
  { year := yearOfEra + era * 400 + (if month ≤ 2 then 1 else 0)
    month
    day := dayOfYear - (153 * shifted + 2) / 5 + 1
    hour := clock / 3600
    minute := clock / 60 % 60
    second := clock % 60 }

/-- Two digits. -/
def two (n : Nat) : Bytes := Number.padLeft 2 48 (Number.decimal n)

/-- The day as year, month and day. -/
def dayText (d : Date) : Bytes :=
  Number.zeroPadded 4 Number.decimal d.year ++ utf8 "-" ++ two d.month ++ utf8 "-" ++ two d.day

/-- The time of day. -/
def clockText (d : Date) : Bytes :=
  two d.hour ++ utf8 ":" ++ two d.minute ++ utf8 ":" ++ two d.second

/-- Day and time with a blank between them. -/
def plain (d : Date) : Bytes := d.dayText ++ utf8 " " ++ d.clockText

/-- Day and time in the form for data exchange. -/
def exchange (d : Date) : Bytes := d.dayText ++ utf8 "T" ++ d.clockText ++ utf8 "Z"

end Date

end RegisterMachine
