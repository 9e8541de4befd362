import CatalogOperator.Text.Quoted
import CatalogOperator.Value.Basic

/-!
# `CatalogOperator.Value.Literal`: values inside messages

A value has two texts. Its literal shows what it is: texts are quoted, and dates spell out their
parts. Its plain text differs for a text, which stands for itself, and for dates, which take their
ISO form. Inside a list, a pair or a mapping everything is a literal.

* `Value.literal`: the literal.
* `Value.plain`: the plain text.
-/

set_option autoImplicit false

namespace CatalogOperator

namespace Value

/-- The parts of a point in time, zeros at the end of the time of day left out beyond the minute. -/
def momentParts (t : Moment) : List Nat :=
  let seconds := t.timeOfDay / Moment.second
  let micros := t.timeOfDay % Moment.second
  let tail := if micros = 0 then (if seconds % 60 = 0 then [] else [seconds % 60])
    else [seconds % 60, micros]
  [t.date.year, t.date.month, t.date.day, seconds / 3600, seconds / 60 % 60] ++ tail

/-- The literal of a duration as days, seconds and microseconds, of which only the days may be
negative. -/
def durationLiteral (micros : Int) : String :=
  let part (name : String) (n : Int) : List String := if n = 0 then [] else [name ++ toString n]
  let parts := part "days=" (micros / Moment.day) ++
    part "seconds=" (micros % Moment.day / Moment.second) ++
    part "microseconds=" (micros % Moment.second)
  "datetime.timedelta(" ++ (if parts.isEmpty then "0" else ", ".intercalate parts) ++ ")"

/-- The literal of an offset: universal time by name, another one as a duration. -/
def offsetLiteral (o : Int) : String :=
  if o = 0 then "datetime.timezone.utc" else "datetime.timezone(" ++ durationLiteral o ++ ")"

/-- The literal of a point in time. -/
def momentLiteral (t : Moment) : String :=
  let zone := match t.offset with
    | none => []
    | some o => ["tzinfo=" ++ offsetLiteral o]
  "datetime.datetime(" ++ ", ".intercalate ((momentParts t).map toString ++ zone) ++ ")"

/-- The literal of a date. -/
def dateLiteral (d : Date) : String :=
  "datetime.date(" ++ ", ".intercalate ([d.year, d.month, d.day].map toString) ++ ")"

/-- The literal of a string of bytes: printable ASCII stands for itself. -/
def bytesLiteral (bs : List UInt8) : String :=
  let cs := bs.map fun b => Char.ofNat b.toNat
  let quote := Text.quoteFor cs
  let shown (c : Char) : List Char :=
    if c.toNat < 0x80 then Text.escaped quote c else '\\' :: 'x' :: Text.hexDigits c.toNat 2
  String.ofList ('b' :: quote :: cs.flatMap shown ++ [quote])

mutual

/-- The literal of a value. -/
def literal : Value → String
  | null => "None"
  | bool b => if b then "True" else "False"
  | int n => toString n
  | float x => x.text
  | text s => Text.quoted s
  | date d => dateLiteral d
  | moment t => momentLiteral t
  | bytes bs => bytesLiteral bs
  | pair a b => "(" ++ literal a ++ ", " ++ literal b ++ ")"
  | list items => "[" ++ ", ".intercalate (literals items) ++ "]"
  | set [] => "set()"
  | set items => "\x7b" ++ ", ".intercalate (literals items) ++ "\x7d"
  | map entries => "\x7b" ++ ", ".intercalate (entryLiterals entries) ++ "\x7d"

/-- The literals of a list of values. -/
def literals : List Value → List String
  | [] => []
  | v :: vs => literal v :: literals vs

/-- The entries of a mapping, each key and value a literal. -/
def entryLiterals : List (Value × Value) → List String
  | [] => []
  | (k, v) :: rest => (literal k ++ ": " ++ literal v) :: entryLiterals rest

end

/-- The plain text of a value. -/
def plain : Value → String
  | text s => s
  | date d => Moment.dateText d
  | moment t => t.textWith " "
  | v => literal v

end Value

end CatalogOperator
