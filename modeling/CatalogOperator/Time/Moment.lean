import CatalogOperator.Time.Calendar

/-!
# `CatalogOperator.Time.Moment`: points in time

A moment is a date with a time of day, and optionally with the offset of its clock from universal
time. Its written form is the extended ISO 8601 one.

* `Moment.text`: the written form, with microseconds and the seconds of the offset only where they
  are not zero.
* `Moment.instant?`: the microseconds from the first moment of year 1 in universal time, for a
  moment that knows its offset.
* `Moment.later`: the moment some seconds later on the same clock.
-/

set_option autoImplicit false

namespace CatalogOperator

/-- A point in time. The time of day and the offset are in microseconds. -/
structure Moment where
  date : Date
  timeOfDay : Nat
  offset : Option Int := none
  deriving DecidableEq, Repr, Inhabited

namespace Moment

/-- A second in microseconds. -/
def second : Nat := 1000000

/-- A day in microseconds. -/
def day : Nat := 24 * 3600 * second

/-- A number with zeros in front up to the given width. -/
def padded (width n : Nat) : String :=
  let digits := (toString n).toList
  String.ofList (List.replicate (width - digits.length) '0' ++ digits)

/-- A duration below a day as hours and minutes, with the given separation of the seconds. -/
def clockText (micros : Nat) (withSeconds : Bool) : String :=
  let seconds := micros / second
  let fraction := micros % second
  let minutes := padded 2 (seconds / 3600) ++ ":" ++ padded 2 (seconds / 60 % 60)
  let tail := if fraction = 0 then "" else "." ++ padded 6 fraction
  if withSeconds || seconds % 60 != 0 || fraction != 0 then
    minutes ++ ":" ++ padded 2 (seconds % 60) ++ tail
  else minutes

/-- The written form of an offset. -/
def offsetText : Option Int → String
  | none => ""
  | some o => (if o < 0 then "-" else "+") ++ clockText o.natAbs false

/-- The written form of a date. -/
def dateText (d : Date) : String :=
  padded 4 d.year ++ "-" ++ padded 2 d.month ++ "-" ++ padded 2 d.day

/-- The written form with the given character between date and time. -/
def textWith (separator : String) (t : Moment) : String :=
  dateText t.date ++ separator ++ clockText t.timeOfDay true ++ offsetText t.offset

/-- The written form. -/
def text (t : Moment) : String :=
  textWith "T" t

/-- The microseconds from the first moment of year 1 on the moment's own clock. -/
def onClock (t : Moment) : Int :=
  (t.date.dayNumber * day + t.timeOfDay : Nat)

/-- The microseconds from the first moment of year 1 in universal time. -/
def instant? (t : Moment) : Option Int :=
  t.offset.map fun o => t.onClock - o

/-- The moment at a count of microseconds from the first moment of year 1. -/
def ofClock (micros : Nat) (offset : Option Int) : Moment :=
  ⟨Date.ofDayNumber (micros / day), micros % day, offset⟩

/-- The moment some seconds later on the same clock. -/
def later (t : Moment) (seconds : Nat) : Moment :=
  ofClock (t.onClock.toNat + seconds * second) t.offset

end Moment

end CatalogOperator
