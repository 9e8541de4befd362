import CatalogOperator.Markup.Schema
import CatalogOperator.Markup.Token
import CatalogOperator.Value.Same

/-!
# `CatalogOperator.Markup.Node`: the nodes of a document

A document is a tree of tagged nodes. An alias stands for the node that was given its name further up
in the same document.

* `Node`: the nodes.
* `Node.value?`: the value of a node. Entries of a merged mapping give way to those of the mapping
  itself.
* `Reading.document?`: the node of the next document among the tokens.
-/

set_option autoImplicit false

namespace CatalogOperator.Markup

/-- A node of a document. -/
inductive Node where
  | scalar (tag : Tag) (text : String)
  | sequence (tag : Tag) (items : List Node)
  | mapping (tag : Tag) (entries : List (Node × Node))
  deriving Repr, Inhabited

namespace Node

/-- The node of an absent value. -/
def empty : Node :=
  .scalar .null ""

/-- Whether a node is the key of an entry that merges another mapping in. -/
def isMerge : Node → Bool
  | scalar .merge _ => true
  | _ => false

/-- An entry with a key that can be one. -/
def entryOf (k v : Value) : Except Fault (Value × Value) :=
  if k.isScalar then .ok (k, v) else .error .malformedText

mutual

/-- The value of a node. -/
def value? : Node → Except Fault Value
  | scalar t s => t.scalar? s
  | sequence .sequence items => (values? items).map .list
  | sequence .pairs items => (pairs? items).map .list
  | sequence _ _ => .error .malformedText
  | mapping .mapping es => (entries? es).map fun p => .map (Value.mapOf (p.1 ++ p.2))
  | mapping .set es =>
    (entries? es).map fun p => .set ((Value.mapOf (p.1 ++ p.2)).map (·.1))
  | mapping _ _ => .error .malformedText

/-- The values of nodes. -/
def values? : List Node → Except Fault (List Value)
  | [] => .ok []
  | n :: rest => do return (← value? n) :: (← values? rest)

/-- The pairs that a list of mappings with one entry each stands for. -/
def pairs? : List Node → Except Fault (List Value)
  | [] => .ok []
  | mapping _ [(k, v)] :: rest => do return .pair (← value? k) (← value? v) :: (← pairs? rest)
  | _ :: _ => .error .malformedText

/-- The entries that are merged into a mapping, and its own. -/
def entries? : List (Node × Node) →
    Except Fault (List (Value × Value) × List (Value × Value))
  | [] => .ok ([], [])
  | (k, v) :: rest =>
    if k.isMerge then do
      let merged ← merged? v
      let (more, own) ← entries? rest
      return (merged ++ more, own)
    else do
      let key ← key? k
      let v ← value? v
      let e ← entryOf key v
      let (more, own) ← entries? rest
      return (more, e :: own)

/-- The value of a key. The equals sign alone is a text there. -/
def key? : Node → Except Fault Value
  | scalar t s => if t = .default then .ok (.text s) else t.scalar? s
  | n => value? n

/-- The entries that a node merges in: those of a mapping, or those of a list of mappings, of which
the earlier ones come last. -/
def merged? : Node → Except Fault (List (Value × Value))
  | mapping _ es => (entries? es).map fun p => p.1 ++ p.2
  | sequence _ items => mergedAll? items
  | scalar _ _ => .error .malformedText

/-- The entries that a list of mappings merges in. -/
def mergedAll? : List Node → Except Fault (List (Value × Value))
  | [] => .ok []
  | mapping _ es :: rest => do
    let (merged, own) ← entries? es
    return (← mergedAll? rest) ++ merged ++ own
  | _ :: _ => .error .malformedText

end

end Node

/-- What is left to be read: the tokens, the named nodes of the document, of which those not yet
complete have no node, and the shorthands for the starts of tags. -/
structure Reading where
  tokens : List Token
  anchors : List (String × Option Node) := []
  shorthands : List (String × String) := []
  deriving Repr, Inhabited

/-- A step of reading nodes. -/
abbrev Parse (α : Type) : Type :=
  StateT Reading (Except Fault) α

namespace Reading

/-- The next token. -/
def peek? : Parse (Option Token) :=
  return (← get).tokens.head?

/-- Leaves the next token behind. -/
def drop : Parse Unit :=
  modify fun r => { r with tokens := r.tokens.drop 1 }

/-- Fails, since the next token cannot stand here or the text cannot be read further. -/
def unexpected {α : Type} : Parse α := do
  match ← peek? with
  | some (.fault f) => throw f
  | _ => throw .malformedText

/-- Leaves the next token behind if it is the given one. Tells whether it was. -/
def accept (t : Token) : Parse Bool := do
  if (← peek?) == some t then
    drop
    return true
  else return false

/-- Leaves the next token behind, which must be the given one. -/
def expect (t : Token) : Parse Unit := do
  if !(← accept t) then unexpected

/-- The shorthands that every document has. -/
def commonShorthands : List (String × String) :=
  [("!", "!"), ("!!", Tag.uriStart)]

/-- The full tag of a tag token. -/
def fullTag (handle : Option String) (suffix : String) : Parse String := do
  match handle with
  | none => return suffix
  | some h =>
    match ((← get).shorthands ++ commonShorthands).find? fun e => e.1 == h with
    | some e => return e.2 ++ suffix
    | none => throw .malformedText

/-- The name and the full tag in front of a node, in any order. -/
def properties : Parse (Option String × Option String) := do
  match ← peek? with
  | some (.anchor name) =>
    drop
    match ← peek? with
    | some (.tag handle suffix) =>
      drop
      return (some name, some (← fullTag handle suffix))
    | _ => return (some name, none)
  | some (.tag handle suffix) =>
    drop
    match ← peek? with
    | some (.anchor name) =>
      drop
      return (some name, some (← fullTag handle suffix))
    | _ => return (none, some (← fullTag handle suffix))
  | _ => return (none, none)

/-- The kind a node has by its tag, or another one if it has no tag that says anything. -/
def kindOf (tag : Option String) (other : Tag) : Tag :=
  match tag with
  | none => other
  | some uri => if uri == "!" then other else .ofUri uri

/-- The node that an alias stands for. -/
def named (name : String) : Parse Node := do
  match (← get).anchors.find? fun e => e.1 == name with
  | some (_, some n) => return n
  | _ => throw .malformedText

/-- Gives a name that is new in the document to the node that starts here. -/
def beginNamed (name : Option String) : Parse Unit := do
  match name with
  | none => return ()
  | some a =>
    if (← get).anchors.any fun e => e.1 == a then throw .malformedText
    else modify fun r => { r with anchors := (a, none) :: r.anchors }

/-- Completes a named node. -/
def endNamed (name : Option String) (n : Node) : Parse Node := do
  modify fun r => { r with anchors := r.anchors.map fun e => if some e.1 == name then (e.1, some n) else e }
  return n

/-- Whether the next token is one of the given ones. -/
def isNext (ts : List Token) : Parse Bool := do
  match ← peek? with
  | some t => return ts.contains t
  | none => return false

mutual

/-- A node. Block collections, and sequences no deeper than the mapping around them, may be ruled
out. -/
def node (inBlock indentless : Bool) : Nat → Parse Node
  | 0 => unexpected
  | fuel + 1 => do
    match ← peek? with
    | some (.alias name) =>
      drop
      named name
    | _ =>
      let (name, tag) ← properties
      beginNamed name
      let kind (other : Tag) := kindOf tag other
      match ← peek?, inBlock, indentless with
      | some .item, _, true => endNamed name (.sequence (kind .sequence) (← looseItems fuel))
      | some (.scalar text plain), _, _ =>
        drop
        let other := if plain || tag == some "!" then Tag.ofPlain text else .text
        endNamed name (.scalar (kind other) text)
      | some .flowSequence, _, _ =>
        drop
        endNamed name (.sequence (kind .sequence) (← flowItems true fuel))
      | some .flowMapping, _, _ =>
        drop
        endNamed name (.mapping (kind .mapping) (← flowEntries true fuel))
      | some .blockSequence, true, _ =>
        drop
        endNamed name (.sequence (kind .sequence) (← items fuel))
      | some .blockMapping, true, _ =>
        drop
        endNamed name (.mapping (kind .mapping) (← entries fuel))
      | _, _, _ =>
        if name.isSome || tag.isSome then endNamed name (.scalar (kind .null) "")
        else unexpected

/-- A node, or the node of an absent value if one of the given tokens comes next. -/
def nodeUnless (ends : List Token) (inBlock indentless : Bool) : Nat → Parse Node
  | 0 => unexpected
  | fuel + 1 => do
    if ← isNext ends then return .empty else node inBlock indentless fuel

/-- The value of an entry, if the colon in front of it comes next. -/
def valueUnless (ends : List Token) (inBlock indentless : Bool) : Nat → Parse Node
  | 0 => unexpected
  | fuel + 1 => do
    if ← accept .value then nodeUnless ends inBlock indentless fuel else return .empty

/-- The items of a block sequence. -/
def items : Nat → Parse (List Node)
  | 0 => unexpected
  | fuel + 1 => do
    if ← accept .item then
      let n ← nodeUnless [.item, .blockEnd] true false fuel
      return n :: (← items fuel)
    else
      expect .blockEnd
      return []

/-- The items of a sequence no deeper than the mapping around it. -/
def looseItems : Nat → Parse (List Node)
  | 0 => unexpected
  | fuel + 1 => do
    if ← accept .item then
      let n ← nodeUnless [.item, .key, .value, .blockEnd] true false fuel
      return n :: (← looseItems fuel)
    else return []

/-- The entries of a block mapping. -/
def entries : Nat → Parse (List (Node × Node))
  | 0 => unexpected
  | fuel + 1 => do
    if ← accept .key then
      let k ← nodeUnless [.key, .value, .blockEnd] true true fuel
      let v ← valueUnless [.key, .value, .blockEnd] true true fuel
      return (k, v) :: (← entries fuel)
    else
      expect .blockEnd
      return []

/-- The items of a flow sequence. An item may be a single entry, which stands for a mapping. -/
def flowItems (first : Bool) : Nat → Parse (List Node)
  | 0 => unexpected
  | fuel + 1 => do
    if ← accept .flowSequenceEnd then return []
    else
      if !first then expect .separator
      if ← accept .flowSequenceEnd then return []
      else if ← accept .key then
        let k ← nodeUnless [.value, .separator, .flowSequenceEnd] false false fuel
        let v ← valueUnless [.separator, .flowSequenceEnd] false false fuel
        return .mapping .mapping [(k, v)] :: (← flowItems false fuel)
      else
        let n ← node false false fuel
        return n :: (← flowItems false fuel)

/-- The entries of a flow mapping. A node alone is a key without a value. -/
def flowEntries (first : Bool) : Nat → Parse (List (Node × Node))
  | 0 => unexpected
  | fuel + 1 => do
    if ← accept .flowMappingEnd then return []
    else
      if !first then expect .separator
      if ← accept .flowMappingEnd then return []
      else if ← accept .key then
        let k ← nodeUnless [.value, .separator, .flowMappingEnd] false false fuel
        let v ← valueUnless [.separator, .flowMappingEnd] false false fuel
        return (k, v) :: (← flowEntries false fuel)
      else
        let n ← node false false fuel
        return (n, .empty) :: (← flowEntries false fuel)

end

/-- The directives in front of a document: at most one version, which must start with 1, and each
shorthand at most once. -/
def directives (versioned : Bool) : List Token → Parse Unit
  | .version major _ :: rest => do
    if versioned || major != 1 then throw .malformedText
    drop
    directives true rest
  | .shorthand handle start :: rest => do
    if (← get).shorthands.any fun e => e.1 == handle then throw .malformedText
    modify fun r => { r with shorthands := (handle, start) :: r.shorthands }
    drop
    directives versioned rest
  | .reserved :: rest => do
    drop
    directives versioned rest
  | _ => return ()

/-- Whether a token stands between documents. -/
def isBetween : Token → Bool
  | .version _ _ => true
  | .shorthand _ _ => true
  | .reserved => true
  | .documentStart => true
  | .documentEnd => true
  | _ => false

/-- The node of a document behind its start. -/
def content : Parse Node := do
  let ts := (← get).tokens
  if ts.head?.all isBetween then return .empty else node true false (4 * ts.length + 4)

/-- The node of the next document, if there is one. Only the first one may lack a mark for its
start. -/
def document? (first : Bool) : Parse (Option Node) := do
  modify fun r => { r with
    tokens := if first then r.tokens else r.tokens.dropWhile (· == .documentEnd)
    anchors := []
    shorthands := [] }
  match ← peek? with
  | none => return none
  | some t =>
    if !first || (isBetween t && t != .documentEnd) then
      directives false (← get).tokens
      expect .documentStart
      let n ← content
      let _ ← accept .documentEnd
      return some n
    else
      let n ← node true false (4 * (← get).tokens.length + 4)
      let _ ← accept .documentEnd
      return some n

end Reading

end CatalogOperator.Markup
