import CatalogOperator.Text.Quoted
import CatalogOperator.Value.Same

/-!
# `CatalogOperator.Json`: documents in JSON

Documents are exchanged as JSON. Numbers with a fraction or an exponent are doubles and all others
whole numbers. Reading and writing put the entries of every mapping in the order of their keys, by
code points, so that equal documents have equal texts.

* `Json.read`: the value of a text. What is not JSON is read as far as it makes sense.
* `Json.write`: the text of a value. A double is shown in a mapping of its own, and a key that is no
  text as its literal in angle brackets.
-/

set_option autoImplicit false

namespace CatalogOperator

namespace Json

/-! ### Reading -/

/-- The value of a hexadecimal digit. -/
def hexValue (c : Char) : Nat :=
  if c.isDigit then c.toNat - '0'.toNat
  else if 'a' ≤ c && c ≤ 'f' then c.toNat - 'a'.toNat + 10
  else if 'A' ≤ c && c ≤ 'F' then c.toNat - 'A'.toNat + 10
  else 0

/-- The number of a run of hexadecimal digits. -/
def hexNumber (cs : List Char) : Nat :=
  cs.foldl (fun n c => n * 16 + hexValue c) 0

/-- The character behind a backslash. -/
def unescape : Char → Char
  | 'n' => '\n'
  | 't' => '\t'
  | 'r' => '\r'
  | 'b' => '\x08'
  | 'f' => '\x0c'
  | c => c

/-- A character given by one UTF-16 unit or by two, and what follows. -/
def readUnits (cs : List Char) : Char × List Char :=
  let unit := hexNumber (cs.take 4)
  let rest := cs.drop 4
  if 0xd800 ≤ unit && unit < 0xdc00 && rest.take 2 == ['\\', 'u'] then
    let low := hexNumber ((rest.drop 2).take 4)
    (Char.ofNat (0x10000 + (unit - 0xd800) * 0x400 + (low - 0xdc00)), rest.drop 6)
  else (Char.ofNat unit, rest)

/-- A string behind its opening quote, and what follows. The number bounds its length. -/
def readString : Nat → List Char → List Char → String × List Char
  | 0, acc, cs => (String.ofList acc.reverse, cs)
  | _ + 1, acc, [] => (String.ofList acc.reverse, [])
  | _ + 1, acc, '"' :: rest => (String.ofList acc.reverse, rest)
  | fuel + 1, acc, '\\' :: 'u' :: rest =>
    let (c, rest) := readUnits rest
    readString fuel (c :: acc) rest
  | fuel + 1, acc, '\\' :: c :: rest => readString fuel (unescape c :: acc) rest
  | fuel + 1, acc, c :: rest => readString fuel (c :: acc) rest

/-- What follows the white space. -/
def skipBlanks (cs : List Char) : List Char :=
  cs.dropWhile fun c => c == ' ' || c == '\n' || c == '\r' || c == '\t'

/-- The number of a token. -/
def readNumber (token : List Char) : Value :=
  let s := String.ofList token
  if token.any fun c => c == '.' || c == 'e' || c == 'E' then .float ((double? s).getD .nan)
  else .int ((wholeNumber? s).getD 0)

/-- Whether a character ends a token. -/
def isEnd (c : Char) : Bool :=
  c == ',' || c == ']' || c == '\x7d' || c == ' ' || c == '\n'

/-- A word or a number. -/
def readToken (cs : List Char) : Value × List Char :=
  let token := cs.takeWhile fun c => !isEnd c
  let v : Value := match String.ofList token with
    | "null" => .null
    | "true" => .bool true
    | "false" => .bool false
    | "NaN" => .float .nan
    | "Infinity" => .float (.infinite false)
    | "-Infinity" => .float (.infinite true)
    | _ => readNumber token
  (v, cs.drop token.length)

/-- Entries in the order of their keys, later ones taking the place of earlier ones. -/
def mappingOf (entries : List (Value × Value)) : Value :=
  .map ((Value.mapOf entries).mergeSort fun a b => !(b.1.plain < a.1.plain))

mutual

/-- A value and what follows. The number bounds its depth and length. -/
def readValue : Nat → List Char → Value × List Char
  | 0, cs => (.null, cs)
  | fuel + 1, cs =>
    match skipBlanks cs with
    | '"' :: rest =>
      let (s, rest) := readString rest.length [] rest
      (.text s, rest)
    | '\x7b' :: rest => readEntries fuel [] (skipBlanks rest)
    | '[' :: rest => readItems fuel [] (skipBlanks rest)
    | rest => readToken rest

/-- The items of a list behind its opening bracket, and what follows. -/
def readItems : Nat → List Value → List Char → Value × List Char
  | 0, acc, cs => (.list acc.reverse, cs)
  | _ + 1, acc, [] => (.list acc.reverse, [])
  | _ + 1, acc, ']' :: rest => (.list acc.reverse, rest)
  | fuel + 1, acc, ',' :: rest => readItems fuel acc (skipBlanks rest)
  | fuel + 1, acc, cs =>
    let (v, rest) := readValue fuel cs
    readItems fuel (v :: acc) (skipBlanks rest)

/-- The entries of a mapping behind its opening brace, and what follows. -/
def readEntries : Nat → List (Value × Value) → List Char → Value × List Char
  | 0, acc, cs => (mappingOf acc.reverse, cs)
  | _ + 1, acc, '\x7d' :: rest => (mappingOf acc.reverse, rest)
  | fuel + 1, acc, ',' :: rest => readEntries fuel acc (skipBlanks rest)
  | fuel + 1, acc, '"' :: rest =>
    let (key, rest) := readString rest.length [] rest
    let (v, rest) := readValue fuel ((skipBlanks rest).drop 1)
    readEntries fuel ((.text key, v) :: acc) (skipBlanks rest)
  | _ + 1, acc, cs => (mappingOf acc.reverse, cs)

end

/-- The value of a text. -/
def read (s : String) : Value :=
  let cs := s.toList
  (readValue (cs.length + 1) cs).1

/-! ### Writing -/

/-- A UTF-16 unit as an escape. -/
def unitText (n : Nat) : List Char :=
  '\\' :: 'u' :: Text.hexDigits n 4

/-- A character inside a string. Characters beyond ASCII are escaped if asked for. -/
def escaped (ascii : Bool) (c : Char) : List Char :=
  if c = '"' || c = '\\' then ['\\', c]
  else if c = '\n' then ['\\', 'n']
  else if c = '\r' then ['\\', 'r']
  else if c = '\t' then ['\\', 't']
  else if c = '\x08' then ['\\', 'b']
  else if c = '\x0c' then ['\\', 'f']
  else if c.toNat < 0x20 then unitText c.toNat
  else if !ascii || c.toNat < 0x80 then [c]
  else if c.toNat < 0x10000 then unitText c.toNat
  else
    let n := c.toNat - 0x10000
    unitText (0xd800 + n / 0x400) ++ unitText (0xdc00 + n % 0x400)

/-- A string. -/
def stringText (ascii : Bool) (s : String) : String :=
  String.ofList ('"' :: s.toList.flatMap (escaped ascii) ++ ['"'])

/-- The text of a key. -/
def keyText : Value → String
  | .text s => s
  | v => "<" ++ v.literal ++ ">"

/-- Items in brackets. -/
def listText (items : List String) : String :=
  "[" ++ ", ".intercalate items ++ "]"

/-- Entries in braces, in the order of their keys. -/
def mappingText (ascii : Bool) (entries : List (String × String)) : String :=
  let sorted := entries.mergeSort fun a b => !(b.1 < a.1)
  "\x7b" ++ ", ".intercalate (sorted.map fun e => stringText ascii e.1 ++ ": " ++ e.2) ++ "\x7d"

mutual

/-- The text of a value. -/
def write (ascii : Bool) : Value → String
  | .null => "null"
  | .bool b => if b then "true" else "false"
  | .int n => toString n
  | .float x => mappingText ascii [("float", stringText ascii x.text)]
  | .text s => stringText ascii s
  | .list vs => listText (writeItems ascii vs)
  | .set vs => listText (writeItems ascii vs)
  | .pair a b => listText [write ascii a, write ascii b]
  | .map es => mappingText ascii (writeEntries ascii es)
  | v => stringText ascii v.plain

/-- The texts of a list of values. -/
def writeItems (ascii : Bool) : List Value → List String
  | [] => []
  | v :: vs => write ascii v :: writeItems ascii vs

/-- The keys and the texts of the values of a mapping. -/
def writeEntries (ascii : Bool) : List (Value × Value) → List (String × String)
  | [] => []
  | (k, v) :: rest => (keyText k, write ascii v) :: writeEntries ascii rest

end

end Json

end CatalogOperator
