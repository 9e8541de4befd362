import CatalogOperator.Fault
import CatalogOperator.Markup.Line

/-!
# `CatalogOperator.Markup.Scalar.Block`: block scalars

A block scalar takes whole lines, as far as they are indented. A literal one keeps its line breaks. A
folded one takes a single break between two lines that start with no blank for a space. The header
may give the indentation, and says whether the break behind the last line is kept alone, with those
of all empty lines behind it, or not at all.

* `BlockHeader.ofLine?`: the header.
* `blockScalar`: a block scalar, and the place behind it.
-/

set_option autoImplicit false

namespace CatalogOperator.Markup

/-- Which breaks at the end of a block scalar are kept. -/
inductive Chomping where
  | strip
  | clip
  | keep
  deriving DecidableEq, Repr, Inhabited

/-- The header of a block scalar: the breaks kept at its end, and how much deeper than the collection
around it is indented, if that is given. -/
structure BlockHeader where
  chomping : Chomping := .clip
  deeper : Option Nat := none
  deriving DecidableEq, Repr, Inhabited

namespace BlockHeader

/-- The breaks a sign asks for. -/
def chomping? : Char → Option Chomping
  | '+' => some .keep
  | '-' => some .strip
  | _ => none

/-- The digit from one to nine that a character is. -/
def digit? (c : Char) : Option Nat :=
  if c.isDigit && c != '0' then some (c.toNat - '0'.toNat) else none

/-- The indicators of a header, in any order and each at most once, and what is left. -/
def indicators (h : BlockHeader) (signed numbered : Bool) : List Char → BlockHeader × List Char
  | [] => (h, [])
  | c :: rest =>
    match chomping? c, digit? c with
    | some k, _ =>
      if signed then (h, c :: rest) else indicators { h with chomping := k } true numbered rest
    | none, some n =>
      if numbered then (h, c :: rest) else indicators { h with deeper := some n } signed true rest
    | none, none => (h, c :: rest)

/-- The header that the rest of a line holds. Nothing but a comment may follow it. -/
def ofLine? (tabs : Bool) (cs : List Char) : Option BlockHeader :=
  let (h, rest) := indicators {} false false cs
  let tail := rest.dropWhile fun c => c == ' ' || (tabs && c == '\t')
  if tail.isEmpty || (tail.head? == some '#' && tail.length < rest.length) then some h else none

end BlockHeader

/-- The number of spaces a line starts with. -/
def leadingSpaces (cs : List Char) : Nat :=
  (cs.takeWhile (· == ' ')).length

/-- The column of the deepest indentation up to the first line that is not empty. -/
def deepestIndent : List Line → Nat
  | [] => 0
  | l :: below =>
    let column := leadingSpaces l.chars
    if column = l.chars.length then max column (deepestIndent below) else column

/-- A line of a block scalar: the breaks of the empty lines above it, its text and its own break. -/
structure BlockLine where
  above : List Char
  chars : List Char
  ending : List Char
  deriving DecidableEq, Repr, Inhabited

/-- Whether the text of a line starts with a blank. -/
def BlockLine.startsBlank (l : BlockLine) : Bool :=
  l.chars.head?.any isBlank

/-- The indented lines of a block scalar with the breaks of empty lines above them, the breaks of the
empty lines at the end, and the lines behind the scalar. -/
def blockLines (indent : Nat) (above : List Char) :
    List Line → List BlockLine × List Char × List Line
  | [] => ([], above, [])
  | l :: below =>
    let spaces := min (leadingSpaces l.chars) indent
    let body := l.chars.drop spaces
    if body.isEmpty then
      if l.ending.isEmpty then ([], above, [l])
      else blockLines indent (above ++ l.ending) below
    else if spaces < indent then ([], above, l :: below)
    else if l.ending.isEmpty then ([⟨above, body, []⟩], [], [⟨[], []⟩])
    else
      let (lines, after, rest) := blockLines indent [] below
      (⟨above, body, l.ending⟩ :: lines, after, rest)

/-- The break between two lines of a block scalar. -/
def breakBetween (folded : Bool) (before after : BlockLine) : List Char :=
  if folded && before.ending == ['\n'] && !before.startsBlank && !after.startsBlank then
    (if after.above.isEmpty then [' '] else [])
  else before.ending

/-- The text of the lines of a block scalar, without the break behind the last. -/
def joinLines (folded : Bool) : List BlockLine → List Char
  | [] => []
  | [l] => l.above ++ l.chars
  | l :: next :: rest =>
    l.above ++ l.chars ++ breakBetween folded l next ++ joinLines folded (next :: rest)

/-- The breaks at the end of a block scalar. -/
def breaksKept (k : Chomping) (lines : List BlockLine) (after : List Char) : List Char :=
  let last := (lines.getLast?.map (·.ending)).getD []
  match k with
  | .strip => []
  | .clip => last
  | .keep => last ++ after

/-- Whether a tab stands where a line has to be indented by spaces. -/
def tabIndentsBlock (indent : Nat) (l : Line) : Bool :=
  let spaces := leadingSpaces l.chars
  spaces < indent && (l.chars.drop spaces).head? == some '\t'

/-- Whether a tab comes first in the first line that is not empty. -/
def tabComesFirst (lines : List Line) : Bool :=
  (lines.findSome? fun l => (l.chars.dropWhile (· == ' ')).head?) == some '\t'

/-- A block scalar inside a collection indented to a column, and the place behind it. The indicator
has been read. -/
def blockScalar (tabs folded : Bool) (indent : Int) (c : Cursor) :
    Except Fault (List Char × Cursor) :=
  match BlockHeader.ofLine? tabs c.rest with
  | none => .error .malformedText
  | some h =>
    let least := (max (indent + 1) 1).toNat
    let column := match h.deeper with
      | some n => least + n - 1
      | none => max least (deepestIndent c.below)
    let (lines, after, rest) := blockLines column [] c.below
    let chars := joinLines folded lines ++ breaksKept h.chomping lines after
    let place : Cursor := match rest with
      | [] => ⟨[], [], [], c.row + 1, 0⟩
      | l :: below => .inLine l below (c.row + (c.below.length - below.length)) l.chars
    if tabs && (rest.head?.any (tabIndentsBlock column) ||
        (h.deeper.isNone && tabComesFirst c.below)) then .error .malformedText
    else .ok (chars, place)

end CatalogOperator.Markup
