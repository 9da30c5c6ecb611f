import CommandBinding.Data.Yaml.Symbol

/-!
Nodes of a YAML document: what its symbols make up. An alias is replaced by the node it names, so a document is one
tree.
-/
namespace CommandBinding.Data.Yaml

/-- A node, and the place where it begins. -/
inductive Node where
  | scalar (text : String) (isPlain : Bool) (mark : Mark)
  | list (items : List Node) (mark : Mark)
  | record (fields : List (Node × Node)) (mark : Mark)
deriving Inhabited, Repr

namespace Node

def mark : Node → Mark
  | scalar _ _ mark | list _ mark | record _ mark => mark

end Node

inductive Part where
  /-- A node; `inBlock` tells whether blocks may begin here, and `atDash` whether items may stand here without a block of
  their own. -/
  | node (inBlock atDash : Bool)
  /-- The items of a block up to its end. -/
  | items (start : Mark)
  /-- The items that stand at the column of the key in front of them. -/
  | looseItems
  /-- The keys and values of a block up to its end. -/
  | fields (start : Mark)
  /-- The items in brackets up to the closing one. -/
  | bracketItems (start : Mark) (isFirst : Bool)
  /-- The keys and values in braces up to the closing one. -/
  | bracketFields (start : Mark) (isFirst : Bool)

/-- The symbols that are left, the anchors so far, and the handles of tags. -/
structure Reader where
  symbols : List PlacedSymbol
  anchors : List (String × Node) := []
  handles : List String := ["!", "!!"]

/-- A step of reading nodes. Keys and values of a record come in turns. -/
abbrev NodeReader (α : Type) := StateT Reader (Except Malformed) α

namespace NodeReader

def front : NodeReader PlacedSymbol := do
  return (← get).symbols.head?.getD ⟨.streamEnd, .start⟩

def at? (symbols : List Symbol) : NodeReader Bool := do
  return symbols.contains (← front).symbol

def skip : NodeReader Unit :=
  modify fun r => { r with symbols := r.symbols.drop 1 }

def fail {α : Type} (problem : String) (context? : Option (String × Mark)) : NodeReader α := do
  throw ⟨problem, (← front).mark, context?⟩

def empty : NodeReader Node := do
  return .scalar "" true (← front).mark

def named (name : String) : NodeReader Node := do
  match (← get).anchors.find? (·.1 == name) with
  | some (_, node) => return node
  | none => fail "unknown anchor" none

def properties : NodeReader (Option String × Bool) := do
  match (← front).symbol with
  | .anchor name =>
    skip
    if let .tag handle := (← front).symbol then
      known handle
    return (some name, true)
  | .tag handle =>
    known handle
    if let .anchor name := (← front).symbol then
      skip
      return (some name, true)
    return (none, true)
  | _ => return (none, false)
where
  /-- Moves on over a tag whose handle is known. -/
  known (handle : String) : NodeReader Unit := do
    if !(← get).handles.contains handle then fail "found undefined tag handle" none
    skip

def pairs : List Node → List (Node × Node)
  | key :: value :: rest => (key, value) :: pairs rest
  | _ => []

/-- The node that the parser of parts reads, or an empty scalar where one of the symbols stands. -/
def nodeUnless (rec : Part → NodeReader (List Node)) (inBlock atDash : Bool) (ends : List Symbol) :
    NodeReader (List Node) := do
  if ← at? ends then return [← empty] else rec (.node inBlock atDash)

/-- The value behind a key; it is empty where no colon stands. -/
def valueUnless (rec : Part → NodeReader (List Node)) (inBlock : Bool) (ends : List Symbol) :
    NodeReader (List Node) := do
  if ← at? [.value] then
    skip
    nodeUnless rec inBlock inBlock ends
  else return [← empty]

def content (rec : Part → NodeReader (List Node)) (inBlock atDash hasProperties : Bool) (mark : Mark) :
    NodeReader Node := do
  let front ← front
  match front.symbol with
  | .entry =>
    if atDash then return .list (← rec .looseItems) front.mark else missing hasProperties mark
  | .scalar text isPlain =>
    skip
    return .scalar text isPlain front.mark
  | .listOpen =>
    skip
    return .list (← rec (.bracketItems front.mark true)) front.mark
  | .recordOpen =>
    skip
    return .record (pairs (← rec (.bracketFields front.mark true))) front.mark
  | .listBlock =>
    if inBlock then
      skip
      return .list (← rec (.items front.mark)) front.mark
    else missing hasProperties mark
  | .recordBlock =>
    if inBlock then
      skip
      return .record (pairs (← rec (.fields front.mark))) front.mark
    else missing hasProperties mark
  | _ => missing hasProperties mark
where
  /-- A node without content, which needs an anchor or a tag. -/
  missing (hasProperties : Bool) (mark : Mark) : NodeReader Node := do
    if hasProperties then empty
    else
      let context := if inBlock then "while parsing a block node" else "while parsing a flow node"
      fail "did not find expected node content" (some (context, mark))

/-- Reads a part, in which `rec` reads the parts it contains. -/
def part (rec : Part → NodeReader (List Node)) : Part → NodeReader (List Node)
  | .node inBlock atDash => do
    let front ← front
    if let .reference name := front.symbol then
      let node ← named name
      skip
      return [node]
    let (anchor?, hasProperties) ← properties
    let node ← content rec inBlock atDash hasProperties front.mark
    if let some name := anchor? then
      modify fun r => { r with anchors := (name, node) :: r.anchors }
    return [node]
  | .items start => do
    if ← at? [.entry] then
      skip
      let item ← nodeUnless rec true false [.entry, .blockEnd]
      return item ++ (← rec (.items start))
    else if ← at? [.blockEnd] then
      skip
      return []
    else fail "did not find expected '-' indicator" (some ("while parsing a block collection", start))
  | .looseItems => do
    if ← at? [.entry] then
      skip
      let item ← nodeUnless rec true false [.entry, .key, .value, .blockEnd]
      return item ++ (← rec .looseItems)
    else return []
  | .fields start => do
    if ← at? [.key] then
      skip
      let key ← nodeUnless rec true true [.key, .value, .blockEnd]
      let value ← valueUnless rec true [.key, .value, .blockEnd]
      return key ++ value ++ (← rec (.fields start))
    else if ← at? [.blockEnd] then
      skip
      return []
    else fail "did not find expected key" (some ("while parsing a block mapping", start))
  | .bracketItems start isFirst => do
    if !isFirst && !(← at? [.listClose]) then
      if ← at? [.comma] then skip
      else fail "did not find expected ',' or ']'" (some ("while parsing a flow sequence", start))
    let front ← front
    if ← at? [.listClose] then
      skip
      return []
    else if ← at? [.key] then
      skip
      let key ← nodeUnless rec false false [.value, .comma, .listClose]
      let value ← valueUnless rec false [.comma, .listClose]
      return .record (pairs (key ++ value)) front.mark :: (← rec (.bracketItems start false))
    else
      let item ← rec (.node false false)
      return item ++ (← rec (.bracketItems start false))
  | .bracketFields start isFirst => do
    if !isFirst && !(← at? [.recordClose]) then
      if ← at? [.comma] then skip
      else fail "did not find expected ',' or '\x7d'" (some ("while parsing a flow mapping", start))
    if ← at? [.recordClose] then
      skip
      return []
    else if ← at? [.key] then
      skip
      let key ← nodeUnless rec false false [.value, .comma, .recordClose]
      let value ← valueUnless rec false [.comma, .recordClose]
      return key ++ value ++ (← rec (.bracketFields start false))
    else
      let key ← rec (.node false false)
      return key ++ [← empty] ++ (← rec (.bracketFields start false))

/-- The reader of all parts, which goes down at most `depth` levels. -/
def read : Nat → Part → NodeReader (List Node)
  | 0, _ => fail "nested too deeply" none
  | depth + 1, p => part (read depth) p

/-- Reads statements about the document behind them, and gives whether there are any. -/
def directives : Nat → NodeReader Bool
  | 0 => return false
  | fuel + 1 => do
    match (← front).symbol with
    | .version =>
      skip
      let _ ← directives fuel
      return true
    | .tagHandle handle =>
      skip
      modify fun r => { r with handles := handle :: r.handles }
      let _ ← directives fuel
      return true
    | _ => return false

def skipAll (symbol : Symbol) : NodeReader Unit :=
  modify fun r => { r with symbols := r.symbols.dropWhile (·.symbol == symbol) }

/-- Reads the node of the only document. A text without a document has no node. -/
def document : NodeReader (Option Node) := do
  let total := (← get).symbols.length
  let node? ←
    if ← at? [.streamEnd] then pure none
    else
      let isStated ← directives total
      if ← at? [.documentStart] then
        skip
        let node ← nodeUnless (read (2 * total + 2)) true false
          [.version, .documentStart, .documentEnd, .streamEnd]
        pure node.head?
      else if isStated then fail "did not find expected <document start>" none
      else pure (← read (2 * total + 2) (.node true false)).head?
  skipAll .documentEnd
  if ← at? [.streamEnd] then return node?
  else if ← at? [.documentStart] then
    throw ⟨"deserializing from YAML containing more than one document is not supported", .start, none⟩
  else fail "did not find expected <document start>" none

end NodeReader

/-- The node of a text that holds one document. A text without any symbols has none. -/
def Node.ofText? (text : String) : Except Malformed (Option Node) := do
  let (node?, _) ← NodeReader.document.run { symbols := ← symbolsOf text }
  return node?

end CommandBinding.Data.Yaml
