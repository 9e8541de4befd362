import CatalogOperator.Number.Shortest
import CatalogOperator.Text.Blank
import CatalogOperator.Text.Digit

/-!
# `CatalogOperator.Number.Basic`: numbers of either kind, and reading them

Durations and settings are whole numbers or doubles. The two kinds are compared by the exact numbers
they stand for, and mixed arithmetic goes through doubles.

* `Number.doubled`: a number times a power of two, where a double meets the limit of its range.
* `Number.min`: the smaller of two numbers, the first when neither is smaller.
* `wholeNumber?`, `double?`: the number written in a text, with white space around it, a sign and
  single underscores between digits allowed. The digits of any script count.
-/

set_option autoImplicit false

namespace CatalogOperator

/-- A number: whole and unbounded, or a double. -/
inductive Number where
  | int (n : Int)
  | float (x : Double)
  deriving DecidableEq, Repr, Inhabited

namespace Number

/-- The rational a number stands for, if it stands for one. -/
def toRat? : Number → Option Rat
  | int n => some n
  | float x => x.toRat?

/-- The double nearest to a number; a whole number beyond the range has none. -/
def toDouble? : Number → Option Double
  | int n =>
    match Double.ofRat n with
    | .infinite _ => none
    | x => some x
  | float x => some x

/-- The written form. -/
def text : Number → String
  | int n => toString n
  | float x => x.text

/-- The strict order by exact value. -/
def lt (x y : Number) : Bool :=
  match x, y with
  | int m, int n => decide (m < n)
  | int _, float (.infinite s) => !s
  | float (.infinite s), int _ => s
  | int m, float y => match y.toRat? with | some q => decide ((m : Rat) < q) | none => false
  | float x, int n => match x.toRat? with | some q => decide (q < (n : Rat)) | none => false
  | float x, float y => x.lt y

/-- The smaller of two numbers, the first when neither is smaller. -/
def min (x y : Number) : Number :=
  if y.lt x then y else x

/-- Whether a number is not above zero. A value that is no number is not. -/
def isAtMostZero (x : Number) : Bool :=
  match x with
  | int n => decide (n ≤ 0)
  | float .nan => false
  | float x => !(Double.zero false).lt x

/-- Whether a number is zero. -/
def isZero : Number → Bool
  | int n => n == 0
  | float (.zero _) => true
  | float _ => false

/-- A number times `2 ^ n`. A double takes part only while `2 ^ n` is a double itself. -/
def doubled (x : Number) (n : Nat) : Option Number :=
  match x with
  | int m => some (int (m * Nat.pow 2 n))
  | float x =>
    match Double.ofRat ((2 : Rat) ^ (n : Int)) with
    | .infinite _ => none
    | factor => some (float (x.mul factor))

end Number

namespace Decimal

/-- The value of a run of digits. -/
def digitsValue (cs : List Char) : Nat :=
  cs.foldl (fun n c => n * 10 + (c.toNat - '0'.toNat)) 0

/-- The digits that continue a run: each may have one underscore in front of it. -/
def moreDigits : List Char → List Char × List Char
  | '_' :: d :: rest =>
    if d.isDigit then
      let (digits, tail) := moreDigits rest
      (d :: digits, tail)
    else ([], '_' :: d :: rest)
  | c :: rest =>
    if c.isDigit then
      let (digits, tail) := moreDigits rest
      (c :: digits, tail)
    else ([], c :: rest)
  | [] => ([], [])

/-- The digits of a run in which single underscores may stand between digits, and what follows. -/
def digitRun : List Char → List Char × List Char
  | c :: rest =>
    if c.isDigit then
      let (digits, tail) := moreDigits rest
      (c :: digits, tail)
    else ([], c :: rest)
  | [] => ([], [])

/-- A sign, if there is one: whether it is a minus, and what follows. -/
def sign : List Char → Bool × List Char
  | '-' :: rest => (true, rest)
  | '+' :: rest => (false, rest)
  | cs => (false, cs)

/-- The double `digits * 10 ^ exponent`. Exponents far outside the range of the doubles are settled
without computing the power. -/
def scaled (negative : Bool) (digits : Nat) (exponent : Int) : Double :=
  if digits = 0 then .zero negative
  else
    let size : Int := (Nat.log2 digits : Int) * 30103 / 100000
    let magnitude : Double :=
      if 400 < exponent + size then .infinite false
      else if exponent + size < -400 then .zero false
      else Double.ofRat (digits * (10 : Rat) ^ exponent)
    if negative then magnitude.neg else magnitude

/-- The exponent behind a mark, nothing if the text ends before the mark. -/
def exponent? : List Char → Option Int
  | [] => some 0
  | c :: rest =>
    if c = 'e' || c = 'E' then
      let (negative, rest) := sign rest
      match digitRun rest with
      | ([], _) => none
      | (digits, []) => some (if negative then -(digitsValue digits) else digitsValue digits)
      | _ => none
    else none

/-- An unsigned decimal: digits with an optional point and an optional exponent. -/
def unsigned? (negative : Bool) (cs : List Char) : Option Double :=
  let (whole, rest) := digitRun cs
  let (fraction, rest) :=
    match rest with
    | '.' :: more =>
      digitRun more
    | _ => ([], rest)
  if whole.isEmpty && fraction.isEmpty then none
  else (exponent? rest).map fun e =>
    scaled negative (digitsValue (whole ++ fraction)) (e - fraction.length)

end Decimal

/-- The characters of a number: those of a text without the space around them, digits as ASCII
ones. -/
def Decimal.characters (s : String) : List Char :=
  let trimmed := ((s.toList.dropWhile Text.isMargin).reverse.dropWhile Text.isMargin).reverse
  trimmed.map Text.asciiDigit

/-- The whole number written in a text. -/
def wholeNumber? (s : String) : Option Int :=
  let (negative, rest) := Decimal.sign (Decimal.characters s)
  match Decimal.digitRun rest with
  | ([], _) => none
  | (digits, []) =>
    some (if negative then -(Decimal.digitsValue digits) else Decimal.digitsValue digits)
  | _ => none

/-- The double written in a text: a decimal, an infinity, or the value that is no number. -/
def double? (s : String) : Option Double :=
  let (negative, rest) := Decimal.sign (Decimal.characters s)
  let word := String.ofList (rest.map Char.toLower)
  if word = "inf" || word = "infinity" then some (.infinite negative)
  else if word = "nan" then some .nan
  else Decimal.unsigned? negative rest

end CatalogOperator
