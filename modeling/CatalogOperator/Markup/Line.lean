/-!
# `CatalogOperator.Markup.Line`: the lines of a text and a place in them

A text in the markup language is read line by line. A line break is a line feed, a carriage return,
both in this order, or one of three rarer characters; inside a scalar the first kinds all count as a
line feed.

* `Line.ofText`: the lines of a text. The last one has no ending.
* `Cursor`: a place in a text.
* `isAllowed`: the characters a text may hold.
-/

set_option autoImplicit false

namespace CatalogOperator.Markup

/-- Whether a character may stand in a text. -/
def isAllowed (c : Char) : Bool :=
  let n := c.toNat
  n == 0x9 || n == 0xa || n == 0xd || (0x20 ≤ n && n ≤ 0x7e) || n == 0x85 ||
    (0xa0 ≤ n && n ≤ 0xd7ff) || (0xe000 ≤ n && n ≤ 0xfffd) || 0x10000 ≤ n

/-- Whether a character is a space or a tab. -/
def isBlank (c : Char) : Bool :=
  c == ' ' || c == '\t'

/-- What a character that breaks a line means inside a scalar. -/
def lineBreak? (c : Char) : Option Char :=
  if c == '\n' || c == '\r' || c == '\x85' then some '\n'
  else if c == '\u2028' || c == '\u2029' then some c
  else none

/-- A line and what its break means inside a scalar, nothing for the last line. -/
structure Line where
  chars : List Char
  ending : List Char
  deriving DecidableEq, Repr, Inhabited

namespace Line

/-- A character in front of the first of some lines. -/
def consFirst (c : Char) : List Line → List Line
  | [] => [⟨[c], []⟩]
  | l :: rest => { l with chars := c :: l.chars } :: rest

/-- The lines of a text. -/
def ofText : List Char → List Line
  | [] => [⟨[], []⟩]
  | '\r' :: '\n' :: rest => ⟨[], ['\n']⟩ :: ofText rest
  | c :: rest =>
    match lineBreak? c with
    | some b => ⟨[], [b]⟩ :: ofText rest
    | none => consFirst c (ofText rest)

/-- Whether a line starts with a marker made of three equal characters. -/
def startsWithMarker (mark : Char) (chars : List Char) : Bool :=
  chars.take 3 == [mark, mark, mark] && ((chars.drop 3).head?.all isBlank)

/-- Whether a line starts with a mark that starts or ends a document. -/
def isMarker (chars : List Char) : Bool :=
  startsWithMarker '-' chars || startsWithMarker '.' chars

end Line

/-- A place in a text: what is left of its line, the ending of that line, the lines below, and the
number of the line and the column. -/
structure Cursor where
  rest : List Char
  ending : List Char
  below : List Line
  row : Nat := 0
  column : Nat := 0
  deriving Repr, Inhabited

namespace Cursor

/-- The start of a text. -/
def ofText (cs : List Char) : Cursor :=
  match Line.ofText cs with
  | [] => ⟨[], [], [], 0, 0⟩
  | l :: below => ⟨l.chars, l.ending, below, 0, 0⟩

/-- A place in a line with what is left of it. -/
def inLine (l : Line) (below : List Line) (row : Nat) (rest : List Char) : Cursor :=
  ⟨rest, l.ending, below, row, l.chars.length - rest.length⟩

/-- The place further on in the line where the given characters are left. -/
def moveTo (c : Cursor) (rest : List Char) : Cursor :=
  { c with rest, column := c.column + (c.rest.length - rest.length) }

/-- The place some characters further on in the line. -/
def skip (c : Cursor) (n : Nat) : Cursor :=
  c.moveTo (c.rest.drop n)

/-- Whether a blank or the end of the line stands some characters further on. -/
def isBlankAt (c : Cursor) (n : Nat) : Bool :=
  (c.rest[n]?).all isBlank

end Cursor

end CatalogOperator.Markup
