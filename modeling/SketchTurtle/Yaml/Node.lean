/-
The tree of a YAML document: texts, sequences and mappings, each with its
tag. An alias is replaced by the node that it names.
-/
import SketchTurtle.Yaml.Implicit
import SketchTurtle.Yaml.Token

namespace SketchTurtle.Yaml

/-- A node. -/
inductive Node where
  | scalar (tag : Tag) (text : String)
  | sequence (tag : Tag) (items : List Node)
  | mapping (tag : Tag) (pairs : List (Node × Node))
  /-- An alias of a collection that it stands in. -/
  | enclosing (isMapping : Bool)
  deriving Inhabited

/-- What an anchor names: a node, or a collection that has not ended yet. -/
inductive Anchored where
  | ended (node : Node)
  | begun (isMapping : Bool)

/-- The state of reading: the tokens that follow, what anchors name, and what
the handles of tags stand for. -/
structure Progress where
  tokens : List Token
  anchors : List (String × Anchored)
  handles : List (String × String)

/-- The reading of a part of a document. -/
abbrev Reading (α : Type) := StateT Progress (Except Fault) α

namespace Reading

/-- The next token is not one that can follow. -/
def fail {α : Type} : Reading α := do
  match (← get).tokens.head? with
  | some (.unreadable fault) => throw fault
  | _ => throw .malformed

/-- The next token. -/
def peek? : Reading (Option Token) := do return (← get).tokens.head?

/-- Past the next token. -/
def skip : Reading Unit := modify fun p => { p with tokens := p.tokens.tail }

/-- Past the next token if it is the given one. -/
def skipIf (t : Token) : Reading Bool := do
  if (← peek?) == some t then
    skip
    return true
  else return false

/-- Whether the next token is one of some. -/
def isNext (ts : List Token) : Reading Bool := do
  return (← peek?).any ts.contains

/-- Lets an anchor name something. -/
def name (anchor : Option String) (what : Anchored) : Reading Unit :=
  match anchor with
  | some a => modify fun p => { p with anchors := (a, what) :: p.anchors }
  | none => pure ()

/-- What an alias stands for. -/
def resolve (anchor : String) : Reading Node := do
  match (← get).anchors.lookup anchor with
  | some (.ended node) => pure node
  | some (.begun isMapping) => pure (.enclosing isMapping)
  | none => fail

/-- The handles that stand for something without a directive. -/
def standardHandles : List (String × String) := [("!", "!"), ("!!", Tag.standardPart)]

/-- The name of a tag in full; nothing if the tag only says that there is one. -/
def fullName (t : TagName) : Reading (Option String) := do
  let full ← match t.handle with
    | none => pure t.suffix
    | some handle => match (← get).handles.lookup handle with
      | some stands => pure (stands ++ t.suffix)
      | none => fail
  return if full == "!" then none else some full

/-- The anchor and the tag in front of a node, in either order: the anchor,
whether there is a tag, and its name. -/
def properties : Reading (Option String × Option (Option String)) := do
  match ← peek? with
  | some (.anchor a) =>
    skip
    match ← peek? with
    | some (.tag t) =>
      skip
      return (some a, some (← fullName t))
    | _ => return (some a, none)
  | some (.tag t) =>
    skip
    let a ← (do match ← peek? with
      | some (.anchor a) =>
        skip
        return some a
      | _ => return none)
    return (a, some (← fullName t))
  | _ => return (none, none)

/-- The tag of a collection. -/
def collectionTag (standard : Tag) : Option (Option String) → Tag
  | some (some full) => .ofName full
  | _ => standard

/-- The tag of a text. Without a name, that of a plain text is found from the
text; with a tag that has no name, so is that of any other. -/
def scalarTag (text : String) (plain : Bool) : Option (Option String) → Tag
  | some (some full) => .ofName full
  | some none => Tag.ofText text
  | none => if plain then Tag.ofText text else .str

/-- The node that stands where nothing is written. -/
def emptyNode : Node := .scalar (Tag.ofText "") ""

mutual

/-- A node. Outside of brackets (`block`), collections may be written by
indentation; a sequence that is the value of a key (`loose`) may be written
without. -/
def node : (fuel : Nat) → (block loose : Bool) → Reading Node
  | 0, _, _ => fail
  | fuel + 1, block, loose => do
    if let some (.alias a) ← peek? then
      skip
      return ← resolve a
    let (anchor, tag) ← properties
    if let some a := anchor then
      if ((← get).anchors.lookup a).isSome then fail
    let sequence (items : Reading (List Node)) : Reading Node := do
      name anchor (.begun false)
      let node := Node.sequence (collectionTag .seq tag) (← items)
      name anchor (.ended node)
      return node
    let mapping (pairs : Reading (List (Node × Node))) : Reading Node := do
      name anchor (.begun true)
      let node := Node.mapping (collectionTag .map tag) (← pairs)
      name anchor (.ended node)
      return node
    match ← peek? with
    | some (.scalar text plain) =>
      skip
      let node := Node.scalar (scalarTag text plain tag) text
      name anchor (.ended node)
      return node
    | some .openSequence =>
      skip
      sequence (flowItems fuel true)
    | some .openMapping =>
      skip
      mapping (flowPairs fuel true)
    | next =>
      if loose && next == some .blockEntry then sequence (looseItems fuel)
      else if block && next == some .blockSequence then
        skip
        sequence (blockItems fuel)
      else if block && next == some .blockMapping then
        skip
        mapping (blockPairs fuel)
      else if anchor.isSome || tag.isSome then
        let node := Node.scalar (scalarTag "" true tag) ""
        name anchor (.ended node)
        return node
      else fail

/-- A node, or an empty one if one of the given tokens follows. -/
def nodeUnless : (fuel : Nat) → (ends : List Token) → (block loose : Bool) → Reading Node
  | 0, _, _, _ => fail
  | fuel + 1, ends, block, loose => do
    if ← isNext ends then return emptyNode
    node fuel block loose

/-- The items of a sequence written by indentation. -/
def blockItems : (fuel : Nat) → Reading (List Node)
  | 0 => fail
  | fuel + 1 => do
    if ← skipIf .blockEntry then
      let item ← nodeUnless fuel [.blockEntry, .blockEnd] true false
      return item :: (← blockItems fuel)
    if ← skipIf .blockEnd then return []
    fail

/-- The items of a sequence that is not indented further than its key. -/
def looseItems : (fuel : Nat) → Reading (List Node)
  | 0 => fail
  | fuel + 1 => do
    if ← skipIf .blockEntry then
      let item ← nodeUnless fuel [.blockEntry, .key, .value, .blockEnd] true false
      return item :: (← looseItems fuel)
    return []

/-- The value of a key, which may be missing. -/
def valueUnless : (fuel : Nat) → (ends : List Token) → (block : Bool) → Reading Node
  | 0, _, _ => fail
  | fuel + 1, ends, block => do
    if ← skipIf .value then nodeUnless fuel ends block block
    else return emptyNode

/-- The pairs of a mapping written by indentation. -/
def blockPairs : (fuel : Nat) → Reading (List (Node × Node))
  | 0 => fail
  | fuel + 1 => do
    let ends := [.key, .value, .blockEnd]
    if ← skipIf .key then
      let key ← nodeUnless fuel ends true true
      let value ← valueUnless fuel ends true
      return (key, value) :: (← blockPairs fuel)
    if ← skipIf .blockEnd then return []
    fail

/-- The items of a sequence between brackets. A pair among them is a mapping
of its own. -/
def flowItems : (fuel : Nat) → (first : Bool) → Reading (List Node)
  | 0, _ => fail
  | fuel + 1, first => do
    if ← skipIf .closeSequence then return []
    if !first then
      if !(← skipIf .flowEntry) then fail
    if ← skipIf .key then
      let key ← nodeUnless fuel [.value, .flowEntry, .closeSequence] false false
      let value ← valueUnless fuel [.flowEntry, .closeSequence] false
      return .mapping .map [(key, value)] :: (← flowItems fuel false)
    if ← skipIf .closeSequence then return []
    let item ← node fuel false false
    return item :: (← flowItems fuel false)

/-- The pairs of a mapping between brackets. A node alone is a key. -/
def flowPairs : (fuel : Nat) → (first : Bool) → Reading (List (Node × Node))
  | 0, _ => fail
  | fuel + 1, first => do
    if ← skipIf .closeMapping then return []
    if !first then
      if !(← skipIf .flowEntry) then fail
    if ← skipIf .key then
      let key ← nodeUnless fuel [.value, .flowEntry, .closeMapping] false false
      let value ← valueUnless fuel [.flowEntry, .closeMapping] false
      return (key, value) :: (← flowPairs fuel false)
    if ← skipIf .closeMapping then return []
    let key ← node fuel false false
    return (key, emptyNode) :: (← flowPairs fuel false)

end

/-! ## Documents -/

/-- Past tokens that mark the end of a document. -/
def skipDocumentEnds : Reading Unit :=
  modify fun p => { p with tokens := p.tokens.dropWhile (· == .documentEnd) }

/-- The directives of a document: the version is given at most once and begins
with one, and every handle is given at most once. -/
def directives (versioned : Bool) (handles : List (String × String)) :
    List Token → Except Fault (List (String × String) × List Token)
  | .version major _ :: rest =>
    if versioned || major != 1 then .error .malformed else directives true handles rest
  | .handle name stands :: rest =>
    if (handles.lookup name).isSome then .error .malformed
    else directives versioned ((name, stands) :: handles) rest
  | .otherDirective :: rest => directives versioned handles rest
  | rest => .ok (handles ++ standardHandles, rest)

/-- A document that begins with directives or a mark. -/
def explicitDocument (fuel : Nat) : Reading Node := do
  let p ← get
  let (handles, rest) ← directives false [] p.tokens
  set { p with handles, tokens := rest }
  if !(← skipIf .documentStart) then fail
  match ← peek? with
  | none | some .documentStart | some .documentEnd | some (.version ..) | some (.handle ..)
  | some .otherDirective => return emptyNode
  | _ => node fuel true false

/-- The only document, or nothing if there is none. -/
def document : Reading (Option Node) := do
  let fuel := 3 * (← get).tokens.length + 3
  let root ← match ← peek? with
    | none => pure none
    | some .documentStart | some (.version ..) | some (.handle ..) | some .otherDirective =>
      some <$> explicitDocument fuel
    | some _ => some <$> node fuel true false
  skipDocumentEnds
  if (← peek?).isSome then fail
  return root

end Reading

/-- The tree of a document. -/
def Node.read (s : List Char) : Except Fault (Option Node) := do
  (·.1) <$> Reading.document.run ⟨tokens s, [], Reading.standardHandles⟩

end SketchTurtle.Yaml
