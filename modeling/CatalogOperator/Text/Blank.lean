/-!
# `CatalogOperator.Text.Blank`: white space

The characters that count as white space when a text is trimmed: those of the Unicode bidirectional
classes WS, B and S together with the space separators. The zero width space and the byte order
mark are not among them.

* `isBlank`: membership in the table.
* `trim`: a text without the white space at both of its ends.
* `isMargin`: the white space that may stand around a number.
-/

set_option autoImplicit false

namespace CatalogOperator.Text

/-- The ranges of code points that are white space, both ends included. -/
def blankRanges : List (Nat × Nat) :=
  [(0x9, 0xd), (0x1c, 0x20), (0x85, 0x85), (0xa0, 0xa0), (0x1680, 0x1680), (0x2000, 0x200a),
    (0x2028, 0x2029), (0x202f, 0x202f), (0x205f, 0x205f), (0x3000, 0x3000)]

/-- Whether a character is white space. -/
def isBlank (c : Char) : Bool :=
  blankRanges.any fun r => r.1 ≤ c.toNat && c.toNat ≤ r.2

/-- The characters without the white space in front. -/
def trimStart (cs : List Char) : List Char :=
  cs.dropWhile isBlank

/-- The characters without the white space at the end. -/
def trimEnd (cs : List Char) : List Char :=
  (cs.reverse.dropWhile isBlank).reverse

/-- The characters without the white space at both ends. -/
def trim (cs : List Char) : List Char :=
  trimEnd (trimStart cs)

/-- Whether a character may stand around a number: white space other than the four information
separators. -/
def isMargin (c : Char) : Bool :=
  isBlank c && !(0x1c ≤ c.toNat && c.toNat ≤ 0x1f)

end CatalogOperator.Text
