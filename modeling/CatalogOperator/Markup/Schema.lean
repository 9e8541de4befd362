import CatalogOperator.Fault
import CatalogOperator.Markup.Scalar.Quoted
import CatalogOperator.Number.Basic

/-!
# `CatalogOperator.Markup.Schema`: what scalars mean

A tag says what kind of value a node is. A plain scalar without a tag has the one its form gives it:
words such as `null`, `yes` and `off`, whole numbers in four bases or in sixtieths, decimals with a
point, and timestamps. Everything else is a text.

* `Tag`: the kinds of value. `Tag.ofUri`: the kind of a full tag.
* `Tag.ofPlain`: the kind of a plain scalar.
* `Tag.scalar?`: the value of a scalar of a kind.
-/

set_option autoImplicit false

namespace CatalogOperator.Markup

/-- A kind of value. -/
inductive Tag where
  | null
  | bool
  | int
  | float
  | timestamp
  | text
  | binary
  | merge
  | default
  | sequence
  | mapping
  | set
  | pairs
  | unknown
  deriving DecidableEq, Repr, Inhabited

namespace Tag

/-- The start of all full tags that have a meaning. -/
def uriStart : String := "tag:yaml.org,2002:"

/-- The kinds by the rest of their full tags. -/
def names : List (String × Tag) :=
  [("null", null), ("bool", bool), ("int", int), ("float", float), ("timestamp", timestamp),
    ("str", text), ("binary", binary), ("merge", merge), ("value", default), ("seq", sequence),
    ("map", mapping), ("set", set), ("omap", pairs), ("pairs", pairs)]

/-- The kind of a full tag. -/
def ofUri (uri : String) : Tag :=
  ((names.find? fun e => uriStart ++ e.1 == uri).map (·.2)).getD unknown

end Tag

/-! ### The forms of plain scalars -/

/-- The words for an absent value. -/
def nullWords : List String :=
  ["", "~", "null", "Null", "NULL"]

/-- The words for the truth values, in lower case. -/
def boolWords : List (String × Bool) :=
  [("yes", true), ("no", false), ("true", true), ("false", false), ("on", true), ("off", false)]

/-- A word with its first letter in upper case. -/
def capitalized (s : String) : String :=
  match s.toList with
  | [] => ""
  | c :: rest => String.ofList (c.toUpper :: rest)

/-- Whether a text is a word for a truth value: in lower case, capitalized or in upper case. -/
def isBoolWord (s : String) : Bool :=
  boolWords.any fun w =>
    s == w.1 || s == capitalized w.1 || s == String.ofList (w.1.toList.map Char.toUpper)

/-- The parts of a text between the colons. -/
def colonParts : List Char → List (List Char)
  | [] => [[]]
  | c :: rest =>
    match colonParts rest with
    | [] => [[c]]
    | part :: parts => if c == ':' then [] :: part :: parts else (c :: part) :: parts

/-- Whether a part counts sixtieths: one digit, or two below sixty. -/
def isSixtieth : List Char → Bool
  | [a] => a.isDigit
  | [a, b] => '0' ≤ a && a ≤ '5' && b.isDigit
  | _ => false

/-- Whether a character is a digit or an underscore. -/
def isDigitOrGap (c : Char) : Bool :=
  c.isDigit || c == '_'

/-- Whether a text is digits and underscores, with parts that count sixtieths behind colons if asked
for. -/
def isDigitRun (sixtieths : Bool) (cs : List Char) : Bool :=
  match colonParts cs with
  | first :: parts => first.all isDigitOrGap && parts.all isSixtieth && parts.isEmpty != sixtieths
  | [] => false

/-- Whether a text is not empty and holds only the given characters and underscores. -/
def isRunOf (p : Char → Bool) (cs : List Char) : Bool :=
  !cs.isEmpty && cs.all fun c => p c || c == '_'

/-- Whether an unsigned text has the form of a whole number. -/
def isWhole (cs : List Char) : Bool :=
  match cs with
  | '0' :: 'b' :: rest => isRunOf (fun c => c == '0' || c == '1') rest
  | '0' :: 'x' :: rest => isRunOf (fun c => (hexDigit? c).isSome) rest
  | '0' :: rest => rest.all fun c => ('0' ≤ c && c ≤ '7') || c == '_'
  | c :: rest => c.isDigit && (isDigitRun false rest || isDigitRun true (c :: rest))
  | [] => false

/-- Whether a text is empty or an exponent with its sign. -/
def isExponent : List Char → Bool
  | [] => true
  | e :: s :: digits =>
    (e == 'e' || e == 'E') && (s == '-' || s == '+') && !digits.isEmpty && digits.all Char.isDigit
  | _ => false

/-- Whether what follows the point of a decimal has its form. -/
def isFraction (cs : List Char) : Bool :=
  isExponent (cs.dropWhile isDigitOrGap)

/-- Whether an unsigned text starts with a digit and has the form of a decimal with a point. -/
def isDecimal (cs : List Char) : Bool :=
  let whole := cs.takeWhile (· != '.')
  match cs.drop whole.length with
  | _ :: rest =>
    whole.head?.any Char.isDigit &&
      ((isDigitRun false whole && isFraction rest) ||
        (isDigitRun true whole && rest.all isDigitOrGap))
  | [] => false

/-- Whether a text starts with a point and has the form of a decimal. -/
def isPointed : List Char → Bool
  | '.' :: c :: rest => c.isDigit && isFraction rest
  | _ => false

/-- Whether a text has the form of a number with a point. -/
def isFloat (cs : List Char) : Bool :=
  let unsigned := (Decimal.sign cs).2
  isDecimal unsigned || isPointed cs ||
    [".inf", ".Inf", ".INF"].contains (String.ofList unsigned) ||
    [".nan", ".NaN", ".NAN"].contains (String.ofList cs)

/-! ### Timestamps -/

/-- The parts of a timestamp: the date, and the clock reading with the digits of its fraction and the
offset in minutes. -/
structure Stamp where
  year : Nat
  month : Nat
  day : Nat
  clock : Option (Nat × Nat × Nat × List Char × Option Int) := none
  deriving DecidableEq, Repr, Inhabited

namespace Stamp

/-- A number of at least and at most so many digits, and what follows. -/
def digits? (least most : Nat) (cs : List Char) : Option (Nat × List Char) :=
  let run := (cs.take most).takeWhile Char.isDigit
  if least ≤ run.length then some (Decimal.digitsValue run, cs.drop run.length) else none

/-- What follows a character. -/
def after? (c : Char) (cs : List Char) : Option (List Char) :=
  if cs.head? == some c then some (cs.drop 1) else none

/-- The offset at the end of a timestamp. -/
def offset? (cs : List Char) : Option (Option Int) :=
  match cs.dropWhile isBlank with
  | [] => if cs.isEmpty then some none else none
  | ['Z'] => some (some 0)
  | s :: rest => do
    if s != '-' && s != '+' then none
    let (hours, rest) ← digits? 1 2 rest
    let (minutes, rest) ← match rest with
      | [] => some (0, [])
      | _ => (after? ':' rest).bind (digits? 2 2)
    let total : Int := (hours * 60 + minutes : Nat)
    if rest.isEmpty then some (some (if s == '-' then -total else total)) else none

/-- The clock reading of a timestamp. -/
def clock? (cs : List Char) : Option (Nat × Nat × Nat × List Char × Option Int) := do
  let (hour, rest) ← digits? 1 2 cs
  let (minute, rest) ← (after? ':' rest).bind (digits? 2 2)
  let (seconds, rest) ← (after? ':' rest).bind (digits? 2 2)
  let behind := (after? '.' rest).getD rest
  let fraction := if rest.head? == some '.' then behind.takeWhile Char.isDigit else []
  let offset ← offset? (behind.drop fraction.length)
  return (hour, minute, seconds, fraction, offset)

/-- The parts of the timestamp a text is. -/
def ofText? (cs : List Char) : Option Stamp := do
  let (year, rest) ← digits? 4 4 cs
  let (month, rest) ← (after? '-' rest).bind (digits? 1 2)
  let (day, rest) ← (after? '-' rest).bind (digits? 1 2)
  match rest with
  | [] => return { year, month, day }
  | c :: more =>
    let more ← if c == 'T' || c == 't' then some more
      else if isBlank c then some (more.dropWhile isBlank) else none
    return { year, month, day, clock := some (← clock? more) }

/-- Whether a plain scalar has the form of a timestamp. A date alone has two digits for the month and
for the day. -/
def isPlain (cs : List Char) : Bool :=
  match ofText? cs with
  | some s => s.clock.isSome || cs.length == 10
  | none => false

/-- The date of a timestamp. -/
def date? (s : Stamp) : Except Fault Date :=
  if s.year = 0 then .error (.invalidArgument "year 0 is out of range")
  else if s.month = 0 || 12 < s.month then .error (.invalidArgument "month must be in 1..12")
  else
    match Date.ofParts? s.year s.month s.day with
    | some d => .ok d
    | none => .error (.invalidArgument "day is out of range for month")

/-- The microseconds that the digits of a fraction stand for; those beyond the sixth are dropped. -/
def micros (fraction : List Char) : Nat :=
  Decimal.digitsValue ((fraction ++ List.replicate 6 '0').take 6)

/-- The offset in microseconds, which must lie within a day. -/
def offsetMicros? (minutes : Int) : Except Fault Int :=
  let micros := minutes * 60 * Moment.second
  if micros.natAbs < Moment.day then .ok micros
  else .error (.invalidArgument ("offset must be a timedelta strictly between " ++
    "-timedelta(hours=24) and timedelta(hours=24), not " ++ Value.durationLiteral micros ++ "."))

/-- The value of a timestamp: a date, or a point in time if it has a clock reading. -/
def value? (s : Stamp) : Except Fault Value :=
  match s.clock with
  | none => (date? s).map .date
  | some (hour, minute, seconds, fraction, minutes) => do
    let offset ← match minutes with
      | none => pure none
      | some m => (offsetMicros? m).map some
    let date ← date? s
    if 23 < hour then throw (.invalidArgument "hour must be in 0..23")
    if 59 < minute then throw (.invalidArgument "minute must be in 0..59")
    if 59 < seconds then throw (.invalidArgument "second must be in 0..59")
    let timeOfDay := ((hour * 60 + minute) * 60 + seconds) * Moment.second + micros fraction
    return .moment { date, timeOfDay, offset }

end Stamp

/-- The kind of a plain scalar. -/
def Tag.ofPlain (s : String) : Tag :=
  let cs := s.toList
  if nullWords.contains s then .null
  else if isBoolWord s then .bool
  else if isFloat cs then .float
  else if isWhole (Decimal.sign cs).2 then .int
  else if s == "<<" then .merge
  else if Stamp.isPlain cs then .timestamp
  else if s == "=" then .default
  else .text

/-! ### The values of scalars -/

/-- The whole number with the given digits in a base. -/
def inBase (base : Nat) (digits : List Char) : Except Fault Nat :=
  let value? := digits.foldlM (fun n c =>
    (hexDigit? c).bind fun d => if d < base then some (n * base + d) else none) 0
  match digits, value? with
  | _ :: _, some n => .ok n
  | _, _ => .error (.invalidArgument ("invalid literal for int() with base " ++ toString base ++
      ": " ++ Text.quoted (String.ofList digits)))

/-- The number of parts that count sixtieths of the one before. -/
def inSixtieths (parts : List Nat) : Nat :=
  parts.foldl (fun n part => n * 60 + part) 0

/-- The fault of a number of which nothing is left. -/
def noDigits {α : Type} : Except Fault α :=
  .error (.outOfRange "string index out of range")

/-- The value of an unsigned whole number without underscores. -/
def wholeValue (cs : List Char) : Except Fault Nat :=
  match cs with
  | [] => noDigits
  | ['0'] => .ok 0
  | '0' :: 'b' :: rest => inBase 2 rest
  | '0' :: 'x' :: rest => inBase 16 rest
  | '0' :: _ => inBase 8 cs
  | _ => ((colonParts cs).mapM (inBase 10)).map inSixtieths

/-- The double with the given digits. -/
def floatPart (cs : List Char) : Except Fault Double :=
  match double? (String.ofList cs) with
  | some x => .ok x
  | none => .error (.invalidArgument ("could not convert string to float: " ++
      Text.quoted (String.ofList cs)))

/-- The sum of parts that count sixtieths of the one before, rounded after every step. -/
def floatInSixtieths (parts : List Double) : Double :=
  (parts.reverse.foldl (fun (acc : Double × Nat) part =>
    (acc.1.add (part.mul (.ofRat acc.2)), acc.2 * 60)) (.zero false, 1)).1

/-- The value of an unsigned number with a point, without underscores and in lower case. -/
def floatValue (cs : List Char) : Except Fault Double :=
  if cs.isEmpty then noDigits
  else if String.ofList cs == ".inf" then .ok (.infinite false)
  else if String.ofList cs == ".nan" then .ok .nan
  else if cs.contains ':' then ((colonParts cs).mapM floatPart).map floatInSixtieths
  else floatPart cs

/-- The value of six bits that a character stands for. -/
def sextet? (c : Char) : Option Nat :=
  if c.isUpper then some (c.toNat - 'A'.toNat)
  else if c.isLower then some (c.toNat - 'a'.toNat + 26)
  else if c.isDigit then some (c.toNat - '0'.toNat + 52)
  else if c == '+' then some 62
  else if c == '/' then some 63
  else none

/-- The bytes of groups of six bits. The groups left at the end are too few for another byte. -/
def bytesOfSextets : List Nat → List UInt8
  | a :: b :: c :: d :: rest =>
    let n := ((a * 64 + b) * 64 + c) * 64 + d
    UInt8.ofNat (n / 65536) :: UInt8.ofNat (n / 256) :: UInt8.ofNat n :: bytesOfSextets rest
  | [a, b, c] =>
    let n := ((a * 64 + b) * 64 + c) / 4
    [UInt8.ofNat (n / 256), UInt8.ofNat n]
  | [a, b] => [UInt8.ofNat ((a * 64 + b) / 16)]
  | _ => []

/-- The bytes written in groups of four characters, the last one filled up with equals signs. Other
characters are skipped. -/
def binaryValue (cs : List Char) : Except Fault (List UInt8) :=
  let sextets := (cs.takeWhile (· != '=')).filterMap sextet?
  let filled := (cs.filter (· == '=')).length
  if cs.all (fun c => c.toNat < 0x80) && sextets.length % 4 != 1 &&
      (sextets.length % 4 = 0 || 4 ≤ sextets.length % 4 + filled) then
    .ok (bytesOfSextets sextets)
  else .error .malformedText

/-- The value of a scalar of a kind. -/
def Tag.scalar? (t : Tag) (s : String) : Except Fault Value :=
  let number := Decimal.sign (s.toList.filter (· != '_'))
  match t with
  | .null => .ok .null
  | .bool =>
    let word := String.ofList (s.toList.map Char.toLower)
    match boolWords.find? fun w => w.1 == word with
    | some w => .ok (.bool w.2)
    | none => .error (.missingKey (.text word))
  | .int => (wholeValue number.2).map fun n => .int (if number.1 then -n else n)
  | .float =>
    (floatValue (number.2.map Char.toLower)).map fun x => .float (if number.1 then x.neg else x)
  | .timestamp =>
    match Stamp.ofText? s.toList with
    | some stamp => stamp.value?
    | none => .error (.unsupported "not a timestamp")
  | .text => .ok (.text s)
  | .binary => (binaryValue s.toList).map .bytes
  | _ => .error .malformedText

end CatalogOperator.Markup
