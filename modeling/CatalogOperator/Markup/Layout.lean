import CatalogOperator.Markup.Schema

/-!
# `CatalogOperator.Markup.Layout`: writing documents

Collections are written in block form, one entry or item a line, the entries of a mapping in the order
of their keys and the items of a sequence as deep as the key they stand under. A text is written
plain where it would be read back as the same text, else in single quotes, and in double quotes if it
holds other characters than printable ASCII. Long scalars are broken at spaces.

* `Style.of`: how a text is written.
* `Markup.write`: the text of a document.
-/

set_option autoImplicit false

namespace CatalogOperator.Markup

/-- How a scalar is written. -/
inductive Style where
  | plain
  | single
  | double
  deriving DecidableEq, Repr, Inhabited

namespace Style

/-- Whether a character can only be written as an escape. -/
def isSpecial (c : Char) : Bool :=
  !(c == '\n' || (0x20 ≤ c.toNat && c.toNat ≤ 0x7e))

/-- Whether a space stands next to a line break. -/
def spaceMeetsBreak : List Char → Bool
  | a :: b :: rest => (a == ' ' && b == '\n') || (a == '\n' && b == ' ') || spaceMeetsBreak (b :: rest)
  | _ => false

/-- Whether a text starts or ends with a space or a line break. -/
def hasOuterSpace (cs : List Char) : Bool :=
  let isSpace (c : Char) := c == ' ' || c == '\n'
  cs.head?.any isSpace || cs.getLast?.any isSpace

/-- Whether what stands behind a character separates words. -/
def isSeparated (rest : List Char) : Bool :=
  rest.head?.all fun c => isBlank c || c == '\n'

/-- Whether a text starts like something else than a plain scalar. -/
def startsLikeIndicator : List Char → Bool
  | '-' :: '-' :: '-' :: _ => true
  | '.' :: '.' :: '.' :: _ => true
  | c :: rest =>
    "#,[]\x7b\x7d&*!|>'\"%@`".contains c || ((c == '?' || c == ':' || c == '-') && isSeparated rest)
  | [] => false

/-- Whether a text holds what would end a plain scalar: a colon in front of a space, or a number sign
behind one. -/
def holdsIndicator : List Char → Bool
  | a :: b :: rest =>
    (b == '#' && (isBlank a || a == '\n')) || (b == ':' && isSeparated rest) ||
      holdsIndicator (b :: rest)
  | _ => false

/-- How a text is written. -/
def of (s : String) : Style :=
  let cs := s.toList
  if cs.any isSpecial || spaceMeetsBreak cs then .double
  else if hasOuterSpace cs || cs.contains '\n' || startsLikeIndicator cs || holdsIndicator cs ||
      Tag.ofPlain s != .text then .single
  else .plain

end Style

/-- The column beyond which a scalar is broken at the next space. -/
def bestWidth : Nat := 80

/-- A line break and the indentation of the next line. -/
def newLine (indent : Nat) : List Char :=
  '\n' :: List.replicate indent ' '

/-- A plain scalar from a column on. A space is given up for a line break unless another space is next
to it. -/
def plainText (indent : Nat) (breaks : Bool) (column : Nat) (spaces : Bool) :
    List Char → List Char
  | [] => []
  | c :: rest =>
    if c == ' ' then
      if breaks && !spaces && bestWidth < column && rest.head? != some ' ' then
        newLine indent ++ plainText indent breaks indent true rest
      else c :: plainText indent breaks (column + 1) true rest
    else c :: plainText indent breaks (column + 1) false rest

/-- What a scalar in single quotes holds, from a column on. Line breaks are written twice where a run of
them starts, and what follows a run is indented. -/
def singleText (indent : Nat) (breaks : Bool) (column : Nat) (spaces broken first : Bool) :
    List Char → List Char
  | [] => if broken then List.replicate indent ' ' else []
  | c :: rest =>
    if c == ' ' then
      if breaks && !spaces && bestWidth < column && !first && !rest.isEmpty &&
          rest.head? != some ' ' then
        newLine indent ++ singleText indent breaks indent true broken false rest
      else c :: singleText indent breaks (column + 1) true broken false rest
    else if c == '\n' then
      (if broken then [c] else [c, c]) ++ singleText indent breaks 0 spaces true false rest
    else
      let lead := if broken then List.replicate indent ' ' else []
      let shown := if c == '\'' then ['\'', '\''] else [c]
      let start := if broken then indent else column
      lead ++ shown ++ singleText indent breaks (start + shown.length) false false false rest

/-- The escapes of one letter. -/
def letterEscapes : List (Nat × Char) :=
  [(0x0, '0'), (0x7, 'a'), (0x8, 'b'), (0x9, 't'), (0xa, 'n'), (0xb, 'v'), (0xc, 'f'), (0xd, 'r'),
    (0x1b, 'e'), (0x22, '"'), (0x5c, '\\'), (0x85, 'N'), (0xa0, '_'), (0x2028, 'L'), (0x2029, 'P')]

/-- The hexadecimal digits of a code point, in upper case. -/
def upperHex (n width : Nat) : List Char :=
  (Text.hexDigits n width).map Char.toUpper

/-- A character between double quotes. -/
def doubleChar (c : Char) : List Char :=
  let n := c.toNat
  if 0x20 ≤ n && n ≤ 0x7e && c != '"' && c != '\\' then [c]
  else
    match letterEscapes.find? fun e => e.1 == n with
    | some e => ['\\', e.2]
    | none =>
      if n ≤ 0xff then '\\' :: 'x' :: upperHex n 2
      else if n ≤ 0xffff then '\\' :: 'u' :: upperHex n 4
      else '\\' :: 'U' :: upperHex n 8

/-- What a scalar in double quotes holds, from a column on. -/
def doubleText (indent : Nat) (breaks : Bool) (column : Nat) (spaces first : Bool) :
    List Char → List Char
  | [] => []
  | c :: rest =>
    if c == ' ' && breaks && !spaces && bestWidth < column && !first && !rest.isEmpty then
      let joint := if rest.head? == some ' ' then ['\\'] else []
      newLine indent ++ joint ++ doubleText indent breaks (indent + joint.length) true false rest
    else
      let shown := doubleChar c
      shown ++ doubleText indent breaks (column + shown.length) (c == ' ') false rest

/-- A text as a scalar from a column on, with the lines it is broken into indented. -/
def scalarText (indent : Nat) (breaks : Bool) (column : Nat) (s : String) : List Char :=
  let cs := s.toList
  match Style.of s with
  | .plain => plainText indent breaks column false cs
  | .single => '\'' :: singleText indent breaks (column + 1) false false true cs ++ ['\'']
  | .double => '"' :: doubleText indent breaks (column + 1) false true cs ++ ['"']

/-- A scalar from a column on. Values that have no form of their own are written as texts. -/
def scalarOf (indent : Nat) (breaks : Bool) (column : Nat) : Value → List Char
  | .null => "null".toList
  | .bool b => (if b then "true" else "false").toList
  | .int n => (toString n).toList
  | v => scalarText indent breaks column v.plain

/-- The length beyond which a key takes a line of its own. -/
def simpleKeyLimit : Nat := 128

/-- Whether a key stands in one line with its value. -/
def isSimpleKey (k : Value) : Bool :=
  k.plain.utf8ByteSize ≤ simpleKeyLimit && !k.plain.toList.contains '\n'

/-- The texts of entries in the order of their keys, each but the first in a line of its own. -/
def joinEntries (indent : Nat) (es : List (String × List Char)) : List Char :=
  (newLine indent).intercalate ((es.mergeSort fun a b => !(b.1 < a.1)).map (·.2))

mutual

/-- A value behind its key, which ends at a column, in a mapping that is indented. -/
def behindKey (indent column : Nat) : Value → List Char
  | .list [] => " []".toList
  | .list (v :: vs) => newLine indent ++ itemsText indent (v :: vs)
  | .map [] => " \x7b\x7d".toList
  | .map (e :: es) => newLine (indent + 2) ++ joinEntries (indent + 2) (entryTexts (indent + 2) (e :: es))
  | v => ' ' :: scalarOf (indent + 2) true (column + 1) v

/-- A value behind a dash, or behind the colon of a key with a line of its own. -/
def behindDash (indent : Nat) : Value → List Char
  | .list [] => " []".toList
  | .list (v :: vs) => ' ' :: itemsText (indent + 2) (v :: vs)
  | .map [] => " \x7b\x7d".toList
  | .map (e :: es) => ' ' :: joinEntries (indent + 2) (entryTexts (indent + 2) (e :: es))
  | v => ' ' :: scalarOf (indent + 2) true (indent + 2) v

/-- The items of a sequence. The place of the first one is reached already. -/
def itemsText (indent : Nat) : List Value → List Char
  | [] => []
  | [v] => '-' :: behindDash indent v
  | v :: w :: rest => '-' :: behindDash indent v ++ newLine indent ++ itemsText indent (w :: rest)

/-- The texts of the entries of a mapping, each with its key. -/
def entryTexts (indent : Nat) : List (Value × Value) → List (String × List Char)
  | [] => []
  | (k, v) :: rest =>
    let text :=
      if isSimpleKey k then
        let key := scalarOf (indent + 2) false indent k
        key ++ ':' :: behindKey indent (indent + key.length + 1) v
      else
        '?' :: ' ' :: scalarOf (indent + 2) true (indent + 2) k ++ newLine indent ++
          ':' :: behindDash indent v
    (k.plain, text) :: entryTexts indent rest

end

/-- The text of a document. -/
def write (v : Value) : String :=
  let body := match v with
    | .list (v :: vs) => itemsText 0 (v :: vs)
    | .map (e :: es) => joinEntries 0 (entryTexts 0 (e :: es))
    | v => (behindDash 0 v).drop 1
  String.ofList (body ++ ['\n'])

end CatalogOperator.Markup
