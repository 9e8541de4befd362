import CatalogOperator.Markup.Scalar.Quoted

/-!
# `CatalogOperator.Markup.Scalar.Plain`: plain scalars

A plain scalar has no quotes. It ends in front of a comment, of a colon that a blank follows, and,
inside a flow collection, of every flow indicator. It may go on in the next lines as long as these are
indented more than the collection around it.

* `plainLine`: what a line holds of a plain scalar.
* `plainScalar`: a plain scalar, the place behind it, and whether it ran into another line.
-/

set_option autoImplicit false

namespace CatalogOperator.Markup

/-- Whether a character is an indicator inside a flow collection. -/
def isFlowIndicator (c : Char) : Bool :=
  c == ',' || c == '[' || c == ']' || c == '\x7b' || c == '\x7d'

/-- Whether a plain scalar ends in front of a character with the given ones behind it. -/
def endsPlain (d : Dialect) (inFlow : Bool) (c : Char) (rest : List Char) : Except Fault Bool :=
  if c == ':' then
    match rest with
    | [] => .ok true
    | next :: _ =>
      if isBlank next then .ok true
      else if !inFlow then .ok false
      else if d.colonEnds then .ok (isFlowIndicator next)
      else if isFlowIndicator next || next == '?' then .error .malformedText
      else .ok false
  else .ok (inFlow && (isFlowIndicator c || (d.questionEnds && c == '?')))

/-- What a line holds of a plain scalar, the last character first, and what is left of the line.
Blanks are kept back until something follows them. -/
def plainLine (d : Dialect) (inFlow : Bool) (chars blanks : List Char) :
    List Char → Except Fault (List Char × List Char)
  | [] => .ok (chars, [])
  | c :: rest =>
    if c == ' ' || (d.tabs && c == '\t') then plainLine d inFlow chars (c :: blanks) rest
    else if c == '\t' || (c == '#' && !blanks.isEmpty) then .ok (chars, c :: rest)
    else do
      if ← endsPlain d inFlow c rest then return (chars, c :: rest)
      else plainLine d inFlow (c :: blanks ++ chars) [] rest

/-- Whether a tab stands among the blanks that indent a line, in front of the given column. -/
def tabIndents (d : Dialect) (indent : Int) (chars : List Char) : Bool :=
  d.tabs && ((chars.takeWhile isBlank).take indent.toNat).contains '\t'

/-- What the lines below hold of a plain scalar, and the place behind it. -/
def plainLines (d : Dialect) (inFlow : Bool) (indent : Int) (chars : List Char) (f : Fold)
    (row : Nat) : List Line → Except Fault (List Char × Cursor)
  | [] => .ok (chars, ⟨[], [], [], row, 0⟩)
  | l :: below =>
    let body := l.chars.dropWhile fun c => c == ' ' || (d.tabs && c == '\t')
    let here := Cursor.inLine l below (row + 1) body
    if Line.isMarker l.chars then .ok (chars, .inLine l below (row + 1) l.chars)
    else if tabIndents d indent l.chars then .error .malformedText
    else if body.isEmpty && !l.ending.isEmpty then
      plainLines d inFlow indent chars { f with more := f.more ++ l.ending } (row + 1) below
    else if body.head? == some '#' || (!inFlow && (here.column : Int) < indent) then
      .ok (chars, here)
    else do
      let (longer, rest) ← plainLine d inFlow (f.chars.reverse ++ chars) [] body
      if rest == body then return (chars, here)
      else if rest.isEmpty && !l.ending.isEmpty then
        plainLines d inFlow indent longer { first := l.ending } (row + 1) below
      else return (longer, .inLine l below (row + 1) rest)

/-- A plain scalar whose lines are indented at least to a column, the place behind it, and whether it
ran into another line. -/
def plainScalar (d : Dialect) (inFlow : Bool) (indent : Int) (c : Cursor) :
    Except Fault (List Char × Cursor × Bool) := do
  let (chars, rest) ← plainLine d inFlow [] [] c.rest
  if rest.isEmpty && !c.ending.isEmpty then
    let (chars, c) ← plainLines d inFlow indent chars { first := c.ending } c.row c.below
    return (chars.reverse, c, true)
  else return (chars.reverse, c.moveTo rest, false)

end CatalogOperator.Markup
