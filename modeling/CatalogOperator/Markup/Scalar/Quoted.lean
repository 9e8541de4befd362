import CatalogOperator.Fault
import CatalogOperator.Markup.Dialect
import CatalogOperator.Markup.Line

/-!
# `CatalogOperator.Markup.Scalar.Quoted`: quoted scalars

A scalar in single quotes stands for itself, except that a quote is written twice. In double quotes a
backslash starts an escape. Either may run over several lines: blanks around a line break are
dropped, a single break counts as a space, and of several ones all but the first are kept. In double
quotes a backslash in front of a break joins the lines.

* `Fold`: what a break inside a scalar means.
* `quotedLine`: what a line holds of a quoted scalar.
* `quotedScalar`: a quoted scalar, and the place behind it.
-/

set_option autoImplicit false

namespace CatalogOperator.Markup

/-- A break inside a scalar: the first line break, those of the empty lines behind it, and whether the
first is taken back by a backslash. -/
structure Fold where
  first : List Char
  more : List Char := []
  escaped : Bool := false
  deriving DecidableEq, Repr, Inhabited

/-- The characters a break inside a scalar stands for. -/
def Fold.chars (f : Fold) : List Char :=
  if f.escaped then f.more
  else if f.first != ['\n'] then f.first ++ f.more
  else if f.more.isEmpty then [' ']
  else f.more

/-- The code point that an escape of one character stands for. -/
def escapeCode? : Char → Option Nat
  | '0' => some 0x0
  | 'a' => some 0x7
  | 'b' => some 0x8
  | 't' => some 0x9
  | '\t' => some 0x9
  | 'n' => some 0xa
  | 'v' => some 0xb
  | 'f' => some 0xc
  | 'r' => some 0xd
  | 'e' => some 0x1b
  | ' ' => some 0x20
  | '"' => some 0x22
  | '\\' => some 0x5c
  | '/' => some 0x2f
  | 'N' => some 0x85
  | '_' => some 0xa0
  | 'L' => some 0x2028
  | 'P' => some 0x2029
  | _ => none

/-- The value of a hexadecimal digit. -/
def hexDigit? (c : Char) : Option Nat :=
  if c.isDigit then some (c.toNat - '0'.toNat)
  else if 'a' ≤ c && c ≤ 'f' then some (c.toNat - 'a'.toNat + 10)
  else if 'A' ≤ c && c ≤ 'F' then some (c.toNat - 'A'.toNat + 10)
  else none

/-- The number written by hexadecimal digits. -/
def hexNumber? (cs : List Char) : Option Nat :=
  cs.foldlM (fun n c => (hexDigit? c).map fun d => n * 16 + d) 0

/-- Whether a code point is half of a character in UTF-16. -/
def isUnit (n : Nat) : Bool :=
  0xd800 ≤ n && n ≤ 0xdfff

/-- The code point that hexadecimal digits stand for. -/
def numberedCode (d : Dialect) (digits : List Char) : Except Fault Nat :=
  match hexNumber? digits with
  | none => .error .malformedText
  | some n =>
    if n ≤ 0x10ffff then
      if isUnit n && !d.unitPairs then .error .malformedText else .ok n
    else if !d.unitPairs then .error .malformedText
    else if n < 0x80000000 then .error (.invalidArgument "chr() arg not in range(0x110000)")
    else .error (.overflow "character number too large")

/-- The characters of code points. Two halves make up one character, a single half is replaced. -/
def ofCodes : List Nat → List Char
  | high :: low :: rest =>
    if 0xd800 ≤ high && high ≤ 0xdbff && 0xdc00 ≤ low && low ≤ 0xdfff then
      Char.ofNat (0x10000 + (high - 0xd800) * 0x400 + (low - 0xdc00)) :: ofCodes rest
    else (if isUnit high then '\ufffd' else Char.ofNat high) :: ofCodes (low :: rest)
  | [n] => [if isUnit n then '\ufffd' else Char.ofNat n]
  | [] => []

/-- How a line of a quoted scalar ends: with the closing quote and what follows it, or at the end of
the line. -/
inductive QuotedEnd where
  | closed (rest : List Char)
  | broken (escaped : Bool)
  deriving DecidableEq, Repr, Inhabited

/-- What a line holds of a quoted scalar: the code points, the last one first, and how it ends. Blanks
are kept back until something follows them. -/
def quotedLine (d : Dialect) (double : Bool) (codes blanks : List Nat) :
    List Char → Except Fault (List Nat × QuotedEnd)
  | [] => .ok (codes, .broken false)
  | '\'' :: '\'' :: rest =>
    let codes := blanks ++ codes
    if double then quotedLine d double (0x27 :: 0x27 :: codes) [] rest
    else quotedLine d double (0x27 :: codes) [] rest
  | ['\\'] =>
    let codes := blanks ++ codes
    if double then .ok (codes, .broken true) else .ok (0x5c :: codes, .broken false)
  | '\\' :: c :: rest =>
    let codes := blanks ++ codes
    if double then
      match c, rest with
      | 'x', a :: b :: rest => do
        quotedLine d double ((← numberedCode d [a, b]) :: codes) [] rest
      | 'u', a :: b :: c :: e :: rest => do
        quotedLine d double ((← numberedCode d [a, b, c, e]) :: codes) [] rest
      | 'U', a :: b :: c :: e :: f :: g :: h :: i :: rest => do
        quotedLine d double ((← numberedCode d [a, b, c, e, f, g, h, i]) :: codes) [] rest
      | c, rest =>
        match escapeCode? c with
        | some n => quotedLine d double (n :: codes) [] rest
        | none => .error .malformedText
    else quotedLine d double (0x5c :: codes) [] (c :: rest)
  | c :: rest =>
    if c == (if double then '"' else '\'') then .ok (blanks ++ codes, .closed rest)
    else if isBlank c then quotedLine d double codes (c.toNat :: blanks) rest
    else quotedLine d double (c.toNat :: blanks ++ codes) [] rest

/-- The scalar of code points that were collected from the last to the first. -/
def scalarOfCodes (codes : List Nat) : List Char :=
  ofCodes codes.reverse

/-- What the lines below hold of a quoted scalar, and the place behind it. -/
def quotedLines (d : Dialect) (double : Bool) (codes : List Nat) (f : Fold) (row : Nat) :
    List Line → Except Fault (List Char × Cursor)
  | [] => .error .malformedText
  | l :: below =>
    let body := l.chars.dropWhile isBlank
    if Line.isMarker l.chars then .error .malformedText
    else if body.isEmpty then
      quotedLines d double codes { f with more := f.more ++ l.ending } (row + 1) below
    else do
      let (codes, stop) ← quotedLine d double ((f.chars.map Char.toNat).reverse ++ codes) [] body
      match stop with
      | .closed rest => return (scalarOfCodes codes, .inLine l below (row + 1) rest)
      | .broken escaped => quotedLines d double codes { first := l.ending, escaped } (row + 1) below

/-- A quoted scalar, and the place behind it. The opening quote has been read. -/
def quotedScalar (d : Dialect) (double : Bool) (c : Cursor) :
    Except Fault (List Char × Cursor) := do
  let (codes, stop) ← quotedLine d double [] [] c.rest
  match stop with
  | .closed rest => return (scalarOfCodes codes, c.moveTo rest)
  | .broken escaped => quotedLines d double codes { first := c.ending, escaped } c.row c.below

end CatalogOperator.Markup
