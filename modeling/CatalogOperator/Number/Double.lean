/-!
# `CatalogOperator.Number.Double`: double-precision numbers, exactly

A double is kept as the rational number it stands for, beside the two zeros, the two infinities and
the value that is no number. Arithmetic is done on rationals and rounded once:

* `roundHalfEven`: the integer nearest to a rational, a half going to the even neighbour.
* `Double.ofRat`: the double nearest to a rational, a half going to the even significand, with
  gradual underflow and overflow to an infinity.
* `Double.mul`, `Double.add`: the exact product and sum, rounded.
* `Double.lt`: the order of the numbers. The two zeros are equal, and the value that is no number is
  below and above nothing.
-/

set_option autoImplicit false

namespace CatalogOperator

/-- The integer nearest to a rational; a half goes to the even neighbour. -/
def roundHalfEven (q : Rat) : Int :=
  let below := q.floor
  let rest := q - below
  if rest < 1 / 2 then below
  else if 1 / 2 < rest then below + 1
  else if below % 2 = 0 then below
  else below + 1

/-- The greatest `e` with `2 ^ e ≤ q`, for a positive `q`. -/
def binaryExponent (q : Rat) : Int :=
  let guess : Int := (Nat.log2 q.num.natAbs : Int) - Nat.log2 q.den
  if q < (2 : Rat) ^ guess then guess - 1 else guess

/-- A double-precision number. `finite` holds a number other than zero. -/
inductive Double where
  | zero (negative : Bool)
  | finite (value : Rat)
  | infinite (negative : Bool)
  | nan
  deriving DecidableEq, Repr, Inhabited

namespace Double

/-- The exponent of the last of the 53 binary digits kept for a positive rational. Below the normal
range it stays at -1074. -/
def lastPlace (q : Rat) : Int :=
  max (binaryExponent q - 52) (-1074)

/-- A positive rational rounded to the binary digits a double keeps. -/
def roundPositive (q : Rat) : Rat :=
  let unit := (2 : Rat) ^ lastPlace q
  roundHalfEven (q / unit) * unit

/-- The least power of two beyond the range of the finite doubles. -/
def range : Rat := (2 : Rat) ^ (1024 : Int)

/-- The double nearest to a rational. -/
def ofRat (q : Rat) : Double :=
  if q = 0 then .zero false
  else
    let magnitude := roundPositive q.abs
    let negative := decide (q < 0)
    if magnitude = 0 then .zero negative
    else if range ≤ magnitude then .infinite negative
    else .finite (if negative then -magnitude else magnitude)

/-- The rational a double stands for, if it stands for one. -/
def toRat? : Double → Option Rat
  | zero _ => some 0
  | finite q => some q
  | infinite _ => none
  | nan => none

/-- The sign, which a zero has too. -/
def isNegative : Double → Bool
  | zero s => s
  | finite q => decide (q < 0)
  | infinite s => s
  | nan => false

/-- The number with the sign reversed. -/
def neg : Double → Double
  | zero s => .zero !s
  | finite q => .finite (-q)
  | infinite s => .infinite !s
  | nan => .nan

/-- The product, rounded once. An infinity times a zero is no number. -/
def mul (x y : Double) : Double :=
  let negative := x.isNegative != y.isNegative
  match x, y with
  | nan, _ => .nan
  | _, nan => .nan
  | infinite _, zero _ => .nan
  | zero _, infinite _ => .nan
  | infinite _, _ => .infinite negative
  | _, infinite _ => .infinite negative
  | zero _, _ => .zero negative
  | _, zero _ => .zero negative
  | finite p, finite q =>
    match ofRat (p * q) with
    | zero _ => .zero negative
    | r => r

/-- The sum, rounded once. Infinities of opposite signs have no number for a sum. -/
def add (x y : Double) : Double :=
  match x, y with
  | nan, _ => .nan
  | _, nan => .nan
  | infinite s, infinite t => if s = t then .infinite s else .nan
  | infinite s, _ => .infinite s
  | _, infinite s => .infinite s
  | zero s, zero t => .zero (s && t)
  | zero _, y => y
  | x, zero _ => x
  | finite p, finite q => ofRat (p + q)

/-- The strict order of the numbers. -/
def lt (x y : Double) : Bool :=
  match x, y with
  | nan, _ => false
  | _, nan => false
  | infinite s, infinite t => s && !t
  | infinite s, _ => s
  | _, infinite t => !t
  | zero _, zero _ => false
  | zero _, finite q => decide (0 < q)
  | finite p, zero _ => decide (p < 0)
  | finite p, finite q => decide (p < q)

end Double

end CatalogOperator
