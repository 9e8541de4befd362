import CatalogOperator.Time.Moment

/-!
# `CatalogOperator.Time.Iso`: reading ISO 8601

A date is `YYYY-MM-DD`, `YYYYMMDD` or a week date, each with or without dashes throughout. One
character separates it from an optional time: two to six digits with or without colons, a fraction
behind a point or a comma, and an offset or `Z`. A date alone is its midnight.

* `Moment.ofIso?`: the moment written in a text.
-/

set_option autoImplicit false

namespace CatalogOperator.Iso

/-- The number written by exactly the given digits. -/
def number? (cs : List Char) (width : Nat) : Option Nat :=
  if cs.length = width ∧ cs.all Char.isDigit then
    some (cs.foldl (fun n c => n * 10 + (c.toNat - '0'.toNat)) 0)
  else none

/-- How many characters of a text are its date. Nothing if the text cannot start with one. -/
def dateLength? (cs : List Char) : Option Nat :=
  if cs.length < 7 then none
  else if cs.length = 7 then some 7
  else if cs[4]? = some '-' then
    if cs[5]? = some 'W' then
      if cs[8]? = some '-' then
        if cs.length = 9 then none
        else if (cs[10]?.map Char.isDigit).getD false then some 8
        else some 10
      else some 8
    else some 10
  else if cs[4]? = some 'W' then
    let digits := ((cs.drop 7).takeWhile Char.isDigit).length
    let position := 7 + digits
    if position < 9 then some position
    else if position % 2 = 0 then some 7
    else some 8
  else some 8

/-- The day of a week date behind the week number: an optional digit, with a dash in front exactly
if the date is dashed. -/
def weekDay? (dashed : Bool) : List Char → Option Nat
  | [] => some 1
  | '-' :: rest => if dashed then number? rest 1 else none
  | rest => if dashed then none else number? rest 1

/-- The date written by a whole text. -/
def date? (cs : List Char) : Option Date := do
  let year ← number? (cs.take 4) 4
  let rest := cs.drop 4
  let dashed := rest.head? == some '-'
  let rest := if dashed then rest.drop 1 else rest
  match rest with
  | 'W' :: more =>
    let week ← number? (more.take 2) 2
    let day ← weekDay? dashed (more.drop 2)
    Date.ofWeek? year week day
  | _ =>
    let month ← number? (rest.take 2) 2
    let rest := rest.drop 2
    match rest with
    | '-' :: more =>
      if dashed then Date.ofParts? year month (← number? more 2) else none
    | _ =>
      if dashed then none else Date.ofParts? year month (← number? rest 2)

/-- The microseconds of a fraction of a second; digits beyond the sixth are dropped. -/
def fraction? (cs : List Char) : Option Nat :=
  if cs.isEmpty then none
  else if cs.all Char.isDigit then number? ((cs ++ List.replicate 6 '0').take 6) 6
  else none

/-- The parts of a clock reading behind the hours: at most `count` more pairs of digits, each behind
a colon if `colons` holds, and a fraction behind a point or a comma after any part. -/
def clockParts? (colons : Bool) : Nat → List Char → Option (List Nat × Nat)
  | _, [] => some ([], 0)
  | count, c :: rest =>
    if c = '.' || c = ',' then (fraction? rest).map ([], ·)
    else
      match count with
      | 0 => none
      | count + 1 =>
        if colons && c != ':' then none
        else do
          let digits := if colons then rest else c :: rest
          let part ← number? (digits.take 2) 2
          let (parts, fraction) ← clockParts? colons count (digits.drop 2)
          return (part :: parts, fraction)

/-- Hours with optional minutes, seconds and fraction. Colons stand between all parts or none. -/
def clock? (cs : List Char) : Option (Nat × Nat × Nat × Nat) := do
  let hour ← number? (cs.take 2) 2
  let rest := cs.drop 2
  let (parts, fraction) ← clockParts? (rest.head? == some ':') 2 rest
  return (hour, parts[0]?.getD 0, parts[1]?.getD 0, fraction)

/-- The microseconds of a clock reading below a day. -/
def timeOfDay? : Nat × Nat × Nat × Nat → Option Nat
  | (hour, minute, seconds, micros) =>
    if hour < 24 ∧ minute < 60 ∧ seconds < 60 then
      some (((hour * 60 + minute) * 60 + seconds) * Moment.second + micros)
    else none

/-- The offset behind its sign. -/
def offset? (negative : Bool) (cs : List Char) : Option Int := do
  let (hour, minute, seconds, micros) ← clock? cs
  let total := ((hour * 60 + minute) * 60 + seconds) * Moment.second + micros
  if total < Moment.day then some (if negative then -(total : Int) else total) else none

/-- A time with an optional offset, which the first plus, dash or `Z` starts. -/
def time? (cs : List Char) : Option (Nat × Option Int) := do
  match cs.find? (fun c => c == '-' || c == '+' || c == 'Z') with
  | none => return (← timeOfDay? (← clock? cs), none)
  | some s =>
    let time ← timeOfDay? (← clock? (cs.takeWhile (· != s)))
    let rest := (cs.dropWhile (· != s)).drop 1
    if s = 'Z' then
      if rest.isEmpty then return (time, some 0) else none
    else return (time, some (← offset? (s == '-') rest))

end CatalogOperator.Iso

namespace CatalogOperator

/-- The moment written in a text. -/
def Moment.ofIso? (s : String) : Option Moment := do
  let cs := s.toList
  let length ← Iso.dateLength? cs
  let date ← Iso.date? (cs.take length)
  match cs.drop length with
  | [] => return ⟨date, 0, none⟩
  | _ :: rest =>
    let (time, offset) ← Iso.time? rest
    return ⟨date, time, offset⟩

end CatalogOperator
