import CatalogOperator.Markup.Scalar.Block
import CatalogOperator.Markup.Scalar.Plain
import CatalogOperator.Markup.Token

/-!
# `CatalogOperator.Markup.Token.Lexer`: the tokens of a text

Tokens are read one after the other. What turns out to be a key only at the colon behind it leaves a
gap in front of its tokens, which the colon fills; a gap that is not filled vanishes.

* `Lexer`: the place in the text, the open collections and the tokens so far.
* `Lexer.next`: reads the next token.
* `Token.ofText`: the tokens of a text.
-/

set_option autoImplicit false

namespace CatalogOperator.Markup

/-- The start of what may turn out to be a key: the gap in front of its tokens, whether it has to be a
key, and its place. -/
structure Candidate where
  gap : Nat
  required : Bool
  row : Nat
  column : Nat
  deriving DecidableEq, Repr, Inhabited

/-- The state of reading: the place in the text, the number of open flow collections, the columns of
the open block collections from the inside out, whether a key may start here, the candidates by the
number of flow collections around them, and the tokens so far. -/
structure Lexer where
  cursor : Cursor
  flow : Nat := 0
  columns : List Nat := []
  keyAllowed : Bool := true
  candidates : List (Nat × Candidate) := []
  tokens : Array (List Token) := #[]
  deriving Repr, Inhabited

/-- A step of reading. -/
abbrev Step : Type :=
  Except Fault Lexer

namespace Lexer

/-- The column of the innermost block collection, -1 outside of all. -/
def indent (l : Lexer) : Int :=
  match l.columns with
  | [] => -1
  | c :: _ => c

/-- Whether the place is inside a flow collection. -/
def inFlow (l : Lexer) : Bool :=
  l.flow != 0

/-- The fault of a text that is not well formed. -/
def malformed : Step :=
  .error .malformedText

/-- A token at the end of the tokens. -/
def emit (t : Token) (l : Lexer) : Lexer :=
  { l with tokens := l.tokens.push [t] }

/-- A place further on in the line. -/
def skip (n : Nat) (l : Lexer) : Lexer :=
  { l with cursor := l.cursor.skip n }

/-- Whether a key may start after the last token. -/
def allowKey (b : Bool) (l : Lexer) : Lexer :=
  { l with keyAllowed := b }

/-! ### Candidates -/

/-- The candidate inside the innermost flow collection. -/
def candidate? (l : Lexer) : Option Candidate :=
  (l.candidates.find? fun e => e.1 == l.flow).map (·.2)

/-- Drops the candidate inside the innermost flow collection without a question. -/
def forgetCandidate (l : Lexer) : Lexer :=
  { l with candidates := l.candidates.filter fun e => e.1 != l.flow }

/-- Drops the candidate inside the innermost flow collection, which must not have to be a key. -/
def dropCandidate (l : Lexer) : Step :=
  if l.candidate?.any (·.required) then malformed else .ok l.forgetCandidate

/-- Marks what starts here as a candidate, if a key may start here. -/
def saveCandidate (l : Lexer) : Step :=
  if l.keyAllowed then do
    let required := !l.inFlow && l.indent == l.cursor.column
    let l ← l.dropCandidate
    let c : Candidate := ⟨l.tokens.size, required, l.cursor.row, l.cursor.column⟩
    return { l with candidates := (l.flow, c) :: l.candidates, tokens := l.tokens.push [] }
  else .ok l

/-- The number of characters a key has at most. -/
def keyLimit : Nat := 1024

/-- Whether what started at a candidate cannot be a key any more. -/
def isStale (l : Lexer) (c : Candidate) : Bool :=
  c.row != l.cursor.row || c.column + keyLimit < l.cursor.column

/-- Drops the candidates that cannot be keys any more; none of them must have to be one. -/
def dropStale (l : Lexer) : Step :=
  if l.candidates.any fun e => l.isStale e.2 && e.2.required then malformed
  else .ok { l with candidates := l.candidates.filter fun e => !l.isStale e.2 }

/-! ### Block collections -/

/-- Ends the block collections that are indented more than a column. -/
def closeTo (column : Int) (l : Lexer) : Lexer :=
  if l.inFlow then l
  else
    let ended := (l.columns.takeWhile fun (c : Nat) => column < c).length
    { l with
      columns := l.columns.drop ended
      tokens := l.tokens ++ (List.replicate ended [Token.blockEnd]).toArray }

/-- Opens a block collection at a column unless one is open there. Tells whether it did. -/
def openAt (column : Nat) (l : Lexer) : Lexer × Bool :=
  if l.indent < column then ({ l with columns := column :: l.columns }, true) else (l, false)

/-- Opens a block collection here, with its token, unless one is open here. -/
def openBlock (t : Token) (l : Lexer) : Lexer :=
  let (l, opened) := l.openAt l.cursor.column
  if opened then l.emit t else l

/-! ### Gaps between tokens -/

/-- The place of the next token, and whether it lies in another line. Comments are skipped. Tabs count
as blanks in the first line or in the others if asked for. -/
def skipGap (tabsHere tabsBelow : Bool) (c : Cursor) : Cursor × Bool :=
  let rest := c.rest.dropWhile fun ch => ch == ' ' || (tabsHere && ch == '\t')
  if rest.isEmpty || rest.head? == some '#' then
    if c.ending.isEmpty then (c.moveTo [], false) else (below c.row c.below, true)
  else (c.moveTo rest, false)
where
  /-- The place of the next token in the lines below. -/
  below (row : Nat) : List Line → Cursor
    | [] => ⟨[], [], [], row, 0⟩
    | l :: lines =>
      let rest := l.chars.dropWhile fun ch => ch == ' ' || (tabsBelow && ch == '\t')
      if rest.isEmpty || rest.head? == some '#' then
        if l.ending.isEmpty then .inLine l lines (row + 1) [] else below (row + 1) lines
      else .inLine l lines (row + 1) rest

/-- Goes to the next token. A new line outside of flow collections may start with a key. -/
def toNextToken (d : Dialect) (l : Lexer) : Lexer :=
  let (cursor, crossed) :=
    skipGap (d.tabs && (l.inFlow || !l.keyAllowed)) (d.tabs && l.inFlow) l.cursor
  { l with cursor, keyAllowed := l.keyAllowed || (crossed && !l.inFlow) }

/-! ### Names, tags and directives -/

/-- Whether a character may stand in a name. -/
def isNameChar (c : Char) : Bool :=
  c.isAlphanum || c == '-' || c == '_'

/-- Whether a character may stand in a tag. -/
def isTagChar (d : Dialect) (verbatim : Bool) (c : Char) : Bool :=
  c.isAlphanum || "-;/?:@&=+$_.!~*'()%".contains c ||
    ((verbatim || !d.commaAfterTag) && (c == ',' || c == '[' || c == ']'))

/-- The bytes of a text in which bytes may be given by a percent sign and two digits. -/
def unescapeTag? : List Char → Option (List UInt8)
  | [] => some []
  | '%' :: a :: b :: rest => do
    let n ← hexNumber? [a, b]
    return UInt8.ofNat n :: (← unescapeTag? rest)
  | '%' :: _ => none
  | c :: rest => do return (String.singleton c).toUTF8.toList ++ (← unescapeTag? rest)

/-- The text of a part of a tag. -/
def tagText? (cs : List Char) : Option String :=
  if cs.isEmpty then none
  else (unescapeTag? cs).bind fun bs => String.fromUTF8? ⟨bs.toArray⟩

/-- The token of a tag and what follows it in the line. -/
def tagToken? (d : Dialect) (cs : List Char) : Option (Token × List Char) :=
  match cs with
  | [] => some (.tag none "!", [])
  | '<' :: rest => do
    let name := rest.takeWhile (isTagChar d true)
    let text ← tagText? name
    match rest.drop name.length with
    | '>' :: rest => some (.tag none text, rest)
    | _ => none
  | c :: _ =>
    if isBlank c then some (.tag none "!", cs)
    else
      let word := cs.takeWhile isNameChar
      let (handle, rest) := match cs.drop word.length with
        | '!' :: rest => (String.ofList ('!' :: word ++ ['!']), rest)
        | _ => ("!", cs)
      let name := rest.takeWhile (isTagChar d false)
      (tagText? name).map fun text => (.tag (some handle) text, rest.drop name.length)

/-- Whether what follows a tag in its line may follow one. -/
def mayFollowTag (d : Dialect) (inFlow : Bool) : List Char → Bool
  | [] => true
  | c :: _ => c == ' ' || (d.tabs && c == '\t') || (d.commaAfterTag && inFlow && c == ',')

/-- Whether the rest of a line holds nothing but a comment. -/
def isLineEnd (cs : List Char) : Bool :=
  match cs.dropWhile (· == ' ') with
  | [] => true
  | c :: _ => c == '#'

/-- The number written by the digits at the start of a line, and what follows. -/
def number? (cs : List Char) : Option (Nat × List Char) :=
  let digits := cs.takeWhile Char.isDigit
  if digits.isEmpty then none
  else some (Decimal.digitsValue digits, cs.drop digits.length)

/-- A version directive behind its name. -/
def versionToken? (d : Dialect) (cs : List Char) : Option Token := do
  match ← number? (cs.dropWhile (· == ' ')) with
  | (major, '.' :: rest) =>
    let (minor, rest) ← number? rest
    if isLineEnd rest && (rest.head?.all (· == ' ')) && (d.anyMinor || minor == 1 || minor == 2)
    then some (.version major minor) else none
  | _ => none

/-- A directive for a shorthand behind its name. -/
def shorthandToken? (d : Dialect) (cs : List Char) : Option Token :=
  match cs.dropWhile (· == ' ') with
  | '!' :: rest => do
    let word := rest.takeWhile isNameChar
    let (handle, rest) ← match rest.drop word.length with
      | '!' :: rest => some (String.ofList ('!' :: word ++ ['!']), rest)
      | rest => if word.isEmpty then some ("!", rest) else none
    match rest with
    | ' ' :: rest =>
      let rest := rest.dropWhile (· == ' ')
      let name := rest.takeWhile (isTagChar d true)
      let start ← tagText? name
      let rest := rest.drop name.length
      if isLineEnd rest && (rest.head?.all (· == ' ')) then some (.shorthand handle start) else none
    | _ => none
  | _ => none

/-- The token of a directive. -/
def directiveToken? (d : Dialect) (cs : List Char) : Option Token :=
  let name := cs.takeWhile isNameChar
  let rest := cs.drop name.length
  if name.isEmpty || !(rest.head?.all (· == ' ')) then none
  else
    match String.ofList name with
    | "YAML" => versionToken? d rest
    | "TAG" => shorthandToken? d rest
    | _ => if d.skipsDirectives then some .reserved else none

/-- The token of an anchor or alias, and what follows it in the line. -/
def nameToken? (token : String → Token) (cs : List Char) : Option (Token × List Char) :=
  let name := cs.takeWhile isNameChar
  let rest := cs.drop name.length
  if !name.isEmpty && rest.head?.all (fun c => isBlank c || "?:,]\x7d%@`".contains c) then
    some (token (String.ofList name), rest)
  else none

/-! ### Single tokens -/

/-- The mark of the start or end of a document. -/
def marker (t : Token) (l : Lexer) : Step := do
  let l ← (l.closeTo (-1)).dropCandidate
  return ((l.emit t).skip 3).allowKey false

/-- A directive, which takes the rest of its line. -/
def directive (d : Dialect) (l : Lexer) : Step := do
  let l ← (l.closeTo (-1)).dropCandidate
  match directiveToken? d (l.cursor.rest.drop 1) with
  | some t => return ({ l with cursor := l.cursor.moveTo [] }.emit t).allowKey false
  | none => malformed

/-- The start of a flow collection. -/
def openFlow (t : Token) (l : Lexer) : Step := do
  let l ← l.saveCandidate
  return ({ l with flow := l.flow + 1 }.emit t).skip 1 |>.allowKey true

/-- The end of a flow collection. -/
def closeFlow (t : Token) (l : Lexer) : Step := do
  let l ← l.dropCandidate
  return ({ l with flow := l.flow - 1 }.emit t).skip 1 |>.allowKey false

/-- The comma in a flow collection. -/
def separator (l : Lexer) : Step := do
  let l ← l.dropCandidate
  return (l.emit .separator).skip 1 |>.allowKey true

/-- The dash of an item. Outside of flow collections it may open a sequence. -/
def item (l : Lexer) : Step := do
  if !l.inFlow && !l.keyAllowed then malformed
  else
    let l := if l.inFlow then l else l.openBlock .blockSequence
    let l ← l.dropCandidate
    return (l.emit .item).skip 1 |>.allowKey true

/-- The question mark of a key. Outside of flow collections it may open a mapping. -/
def explicitKey (l : Lexer) : Step := do
  if !l.inFlow && !l.keyAllowed then malformed
  else
    let l := if l.inFlow then l else l.openBlock .blockMapping
    let l ← l.dropCandidate
    return (l.emit .key).skip 1 |>.allowKey !l.inFlow

/-- The colon in front of a value. It makes a key of the candidate in front of it. -/
def value (l : Lexer) : Step := do
  match l.candidate? with
  | some c =>
    let l := l.forgetCandidate
    let (l, opened) := if l.inFlow then (l, false) else l.openAt c.column
    let filling := if opened then [Token.blockMapping, .key] else [.key]
    let l := { l with tokens := l.tokens.modify c.gap fun _ => filling }
    return (l.emit .value).skip 1 |>.allowKey false
  | none =>
    if !l.inFlow && !l.keyAllowed then malformed
    else
      let l := if l.inFlow then l else l.openBlock .blockMapping
      return (l.emit .value).skip 1 |>.allowKey !l.inFlow

/-- A token that may be part of a key and lies in one line. -/
def inLine (token? : List Char → Option (Token × List Char)) (l : Lexer) : Step := do
  let l ← l.saveCandidate
  match token? (l.cursor.rest.drop 1) with
  | some (t, rest) => return ({ l with cursor := l.cursor.moveTo rest }.emit t).allowKey false
  | none => malformed

/-- A tag. -/
def tag (d : Dialect) (l : Lexer) : Step := do
  let l ← l.inLine (tagToken? d)
  if mayFollowTag d l.inFlow l.cursor.rest then .ok l else malformed

/-- A block scalar. -/
def block (d : Dialect) (folded : Bool) (l : Lexer) : Step := do
  let l ← l.dropCandidate
  let (chars, cursor) ← blockScalar d.tabs folded l.indent (l.cursor.skip 1)
  return ({ l with cursor }.emit (.scalar (String.ofList chars) false)).allowKey true

/-- A quoted scalar. -/
def quoted (d : Dialect) (double : Bool) (l : Lexer) : Step := do
  let l ← l.saveCandidate
  let (chars, cursor) ← quotedScalar d double (l.cursor.skip 1)
  return ({ l with cursor }.emit (.scalar (String.ofList chars) false)).allowKey false

/-- A plain scalar. -/
def plain (d : Dialect) (l : Lexer) : Step := do
  let l ← l.saveCandidate
  let (chars, cursor, crossed) ← plainScalar d l.inFlow (l.indent + 1) l.cursor
  return ({ l with cursor }.emit (.scalar (String.ofList chars) true)).allowKey crossed

/-- Whether a plain scalar may start with a character that the given one follows. -/
def startsPlain (inFlow : Bool) (c : Char) (blankNext : Bool) : Bool :=
  !(isBlank c || "-?:,[]\x7b\x7d#&*!|>'\"%@`".contains c) ||
    (!blankNext && (c == '-' || (!inFlow && (c == '?' || c == ':'))))

/-- The token at the place. -/
def tokenHere (d : Dialect) (l : Lexer) (c : Char) : Step :=
  let blankNext := l.cursor.isBlankAt 1
  let atStart := l.cursor.column = 0
  if atStart && c == '%' then l.directive d
  else if atStart && Line.startsWithMarker '-' l.cursor.rest then l.marker .documentStart
  else if atStart && Line.startsWithMarker '.' l.cursor.rest then l.marker .documentEnd
  else if c == '[' then l.openFlow .flowSequence
  else if c == '\x7b' then l.openFlow .flowMapping
  else if c == ']' then l.closeFlow .flowSequenceEnd
  else if c == '\x7d' then l.closeFlow .flowMappingEnd
  else if c == ',' then l.separator
  else if c == '-' && blankNext then l.item
  else if c == '?' && (l.inFlow || blankNext) then l.explicitKey
  else if c == ':' && (l.inFlow || blankNext) then l.value
  else if c == '*' then l.inLine (nameToken? .alias)
  else if c == '&' then l.inLine (nameToken? .anchor)
  else if c == '!' then l.tag d
  else if c == '|' && !l.inFlow then l.block d false
  else if c == '>' && !l.inFlow then l.block d true
  else if c == '\'' then l.quoted d false
  else if c == '"' then l.quoted d true
  else if startsPlain l.inFlow c blankNext then l.plain d
  else malformed

/-- Reads the next token. At the end of the text all block collections end, and nothing may be left
that has to be a key. Tells whether there was a token. -/
def next (d : Dialect) (l : Lexer) : Except Fault (Lexer × Bool) := do
  let l ← (l.toNextToken d).dropStale
  match l.cursor.rest with
  | c :: _ => return (← (l.closeTo l.cursor.column).tokenHere d c, true)
  | [] => return (← (l.closeTo (-1)).dropCandidate, false)

/-- Reads as many tokens as the given number. A fault takes the place of all that would follow. -/
def run (d : Dialect) (l : Lexer) : Nat → List Token
  | 0 => l.tokens.toList.flatten
  | fuel + 1 =>
    match l.next d with
    | .error f => l.tokens.toList.flatten ++ [.fault f]
    | .ok (l, more) => if more then run d l fuel else l.tokens.toList.flatten

end Lexer

/-- The tokens of a text. Every token takes at least one character. -/
def Token.ofText (d : Dialect) (s : String) : List Token :=
  let cs := s.toList
  if cs.all isAllowed then
    let cs := if cs.head? == some '\ufeff' then cs.drop 1 else cs
    ({ cursor := .ofText cs } : Lexer).run d (cs.length + 1)
  else [.fault .malformedText]

end CatalogOperator.Markup
