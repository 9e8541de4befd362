import CatalogOperator.Number.Double

/-!
# `CatalogOperator.Number.Shortest`: the text of a double

A double is written with the fewest decimal digits that read back as the same double and, among
those, as the decimal nearest to it. The search goes through one to seventeen digits; on each grid
of decimals only the two neighbours of the value can be the answer.

* `Double.shortest`: the digits and the decimal exponent of a positive finite double.
* `Double.text`: the written form. Exponents from -4 to 15 are written out, with at least one digit
  on each side of the point; others take a mark with a signed exponent of at least two digits.
-/

set_option autoImplicit false

namespace CatalogOperator

/-- The greatest `e` with `10 ^ e ≤ q`, for a positive `q`. -/
def decimalExponent (q : Rat) : Int :=
  let guess := (binaryExponent q * 30103) / 100000
  if q < (10 : Rat) ^ guess then guess - 1
  else if (10 : Rat) ^ (guess + 1) ≤ q then guess + 1
  else guess

namespace Double

/-- The decimal `digits * 10 ^ place` nearest to `q` that reads back as `q`, if one of the two
neighbours of `q` on that grid does. -/
def onGrid? (q : Rat) (place : Int) : Option (Nat × Int) :=
  let unit := (10 : Rat) ^ place
  let below := (q / unit).floor.toNat
  let reads (digits : Nat) : Bool := ofRat (digits * unit) == .finite q
  let nearer := (roundHalfEven (q / unit)).toNat
  if reads nearer then some (nearer, place)
  else if reads below then some (below, place)
  else if reads (below + 1) then some (below + 1, place)
  else none

/-- The first grid, from coarse to fine, that has a decimal reading back as `q`. -/
def searchGrids (q : Rat) (top : Int) : Nat → Nat → Nat × Int
  | 0, count => ((roundHalfEven (q / (10 : Rat) ^ (top - count))).toNat, top - count)
  | tries + 1, count =>
    match onGrid? q (top - count) with
    | some found => found
    | none => searchGrids q top tries (count + 1)

/-- The digits of a positive finite double and the place of its last digit. -/
def shortest (q : Rat) : Nat × Int :=
  searchGrids q (decimalExponent q) 17 0

/-- A decimal without the zeros at the end of its digits. -/
def dropZeros (digits : List Char) : List Char :=
  (digits.reverse.dropWhile (· == '0')).reverse

/-- A decimal point after the first `before` digits, with zeros added where digits are missing. -/
def pointed (digits : List Char) (before : Int) : List Char :=
  if before ≤ 0 then
    '0' :: '.' :: (List.replicate before.natAbs '0' ++ digits)
  else
    let count := before.toNat
    if count < digits.length then digits.take count ++ '.' :: digits.drop count
    else digits ++ List.replicate (count - digits.length) '0' ++ ['.', '0']

/-- An exponent as it stands behind the mark: a sign and at least two digits. -/
def exponentText (e : Int) : List Char :=
  let digits := (toString e.natAbs).toList
  (if e < 0 then '-' else '+') :: (if digits.length < 2 then '0' :: digits else digits)

/-- The written form of a positive finite double. -/
def positiveText (q : Rat) : List Char :=
  let (number, place) := shortest q
  let written := (toString number).toList
  let exponent : Int := place + written.length - 1
  let digits := dropZeros written
  if -4 ≤ exponent ∧ exponent ≤ 15 then pointed digits (exponent + 1)
  else
    match digits with
    | [] => []
    | d :: [] => d :: 'e' :: exponentText exponent
    | d :: rest => d :: '.' :: rest ++ 'e' :: exponentText exponent

/-- The written form of a double. -/
def text : Double → String
  | zero s => if s then "-0.0" else "0.0"
  | infinite s => if s then "-inf" else "inf"
  | nan => "nan"
  | finite q =>
    if q < 0 then String.ofList ('-' :: positiveText (-q)) else String.ofList (positiveText q)

end Double

end CatalogOperator
