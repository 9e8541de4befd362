/-!
# `CatalogOperator.Time.Calendar`: dates

Dates of the proleptic Gregorian calendar from year 1 to year 9999.

* `Date.ofParts?`: the date with the given parts, if there is one.
* `Date.dayNumber`, `Date.ofDayNumber`: the count of days since the first day of year 1, and the
  date at a count.
* `Date.ofWeek?`: the date of a day of a week in the week-numbering year.
-/

set_option autoImplicit false

namespace CatalogOperator

/-- A day of the calendar. -/
structure Date where
  year : Nat
  month : Nat
  day : Nat
  deriving DecidableEq, Repr, Inhabited

namespace Date

/-- Whether a year has a leap day. -/
def isLeap (year : Nat) : Bool :=
  year % 4 == 0 && (year % 100 != 0 || year % 400 == 0)

/-- The number of days of a month. -/
def monthLength (year month : Nat) : Nat :=
  match month with
  | 2 => if isLeap year then 29 else 28
  | 4 | 6 | 9 | 11 => 30
  | _ => 31

/-- The date with the given parts, if there is one. -/
def ofParts? (year month day : Nat) : Option Date :=
  if 1 ≤ year ∧ year ≤ 9999 ∧ 1 ≤ month ∧ month ≤ 12 ∧ 1 ≤ day ∧ day ≤ monthLength year month then
    some ⟨year, month, day⟩
  else none

/-- The number of days before the first day of a year. -/
def daysBeforeYear (year : Nat) : Nat :=
  let y := year - 1
  y * 365 + y / 4 - y / 100 + y / 400

/-- The number of days of a year before the first day of a month. -/
def daysBeforeMonth (year month : Nat) : Nat :=
  (List.range (month - 1)).foldl (fun days m => days + monthLength year (m + 1)) 0

/-- The days from the first day of year 1 to a date. -/
def dayNumber (d : Date) : Nat :=
  daysBeforeYear d.year + daysBeforeMonth d.year d.month + (d.day - 1)

/-- The month and day at a count of days into a year, searching from a month on. -/
def monthAndDay (year : Nat) (rest : Nat) : Nat → Nat → Nat × Nat
  | 0, month => (month, rest + 1)
  | more + 1, month =>
    if rest < monthLength year month then (month, rest + 1)
    else monthAndDay year (rest - monthLength year month) more (month + 1)

/-- The date at a count of days since the first day of year 1. -/
def ofDayNumber (n : Nat) : Date :=
  let guess := n / 366 + 1
  let year := (List.range 30).foldl
    (fun y _ => if daysBeforeYear (y + 1) ≤ n then y + 1 else y) guess
  let (month, day) := monthAndDay year (n - daysBeforeYear year) 11 1
  ⟨year, month, day⟩

/-- The count of days before the first week of a week-numbering year. Weeks start on Monday, and
the first one is the week of January 4. -/
def firstWeek (year : Nat) : Nat :=
  let fourth := daysBeforeYear year + 3
  fourth - fourth % 7

/-- The date of a day of a week, if the year has that week. -/
def ofWeek? (year week day : Nat) : Option Date :=
  let weeks := (firstWeek (year + 1) - firstWeek year) / 7
  if 1 ≤ year ∧ year ≤ 9999 ∧ 1 ≤ week ∧ week ≤ weeks ∧ 1 ≤ day ∧ day ≤ 7 then
    let date := ofDayNumber (firstWeek year + (week - 1) * 7 + (day - 1))
    ofParts? date.year date.month date.day
  else none

end Date

end CatalogOperator
