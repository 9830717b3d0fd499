import RiskScan.Yaml.Tag
import RiskScan.Yaml.Token.Lexer
/-!
# From tokens to nodes

A document is one node: a scalar, a sequence or a mapping, each with its type. An alias stands for
the node that carries the anchor of that name, which has to be complete by then, so no node contains
itself. A missing node is an empty plain scalar. In a mapping, a sequence may stand in the column of
the keys.
-/

namespace RiskScan.Yaml

inductive Node where
  | scalar (tag : Tag) (text : String)
  | sequence (tag : Tag) (items : List Node)
  | mapping (tag : Tag) (entries : List (Node × Node))

instance : Inhabited Node := ⟨.scalar .null ""⟩

def Node.missing : Node := .scalar .null ""

structure Parser where
  tokens : List Token
  /-- What the tag handles of the document stand for. -/
  handles : List (String × String) := []
  /-- The nodes that have an anchor; those that are not complete yet have no value. -/
  anchors : List (String × Option Node) := []

abbrev Parse := StateT Parser (Except Error)

namespace Parse

def malformed {α : Type} : Parse α := throw .malformed

/-- The next token. A text that cannot be divided further fails when its end is met. -/
def peek : Parse Token := do
  match (← get).tokens.head? with
  | some (.broken error) => throw error
  | some token => return token
  | none => return .streamEnd

def pass : Parse Unit :=
  modify fun parser => { parser with tokens := parser.tokens.drop 1 }

def expect (token : Token) : Parse Unit := do
  if (← peek) = token then pass else malformed

def atAny (tokens : List Token) : Parse Bool := return tokens.contains (← peek)

/-- A tag as it is written: its handle, if it has one, and the rest. -/
abbrev WrittenTag := Option String × String

/-- The anchor and the tag in front of a node, in either order. -/
def properties : Parse (Option String × Option WrittenTag) := do
  match ← peek with
  | .anchor name =>
    pass
    match ← peek with
    | .tag handle rest =>
      pass
      return (some name, some (handle, rest))
    | _ => return (some name, none)
  | .tag handle rest =>
    pass
    match ← peek with
    | .anchor name =>
      pass
      return (some name, some (handle, rest))
    | _ => return (none, some (handle, rest))
  | _ => return (none, none)

def address : WrittenTag → Parse String
  | (none, rest) => return rest
  | (some handle, rest) => do
    match (← get).handles.lookup handle with
    | some start => return start ++ rest
    | none => malformed

/-- The tag of a scalar, which follows from its form if nothing is written in front. -/
def scalarTag (written : Option String) (text : String) (isPlain : Bool) : Tag :=
  match written with
  | some "!" => .ofPlain text.toList
  | some address => .ofAddress address
  | none => if isPlain then .ofPlain text.toList else .text

def collectionTag (written : Option String) (usual : Tag) : Tag :=
  match written with
  | some "!" => usual
  | some address => .ofAddress address
  | none => usual

def setAnchor (anchor : Option String) (node : Option Node) : Parse Unit :=
  match anchor with
  | some name => modify fun parser => { parser with anchors := (name, node) :: parser.anchors }
  | none => pure ()

/-- Every anchor of a document has a name of its own. -/
def demandNewAnchor (anchor : Option String) : Parse Unit := do
  match anchor with
  | some name => if ((← get).anchors.lookup name).isSome then malformed
  | none => pure ()

def anchored (anchor : Option String) (node : Parse Node) : Parse Node := do
  demandNewAnchor anchor
  setAnchor anchor none
  let node ← node
  setAnchor anchor (some node)
  return node

def aliased (name : String) : Parse Node := do
  pass
  match (← get).anchors.lookup name with
  | some (some node) => return node
  | _ => malformed

mutual

/-- A node. Blocks are allowed unless it stands in a flow collection, and a sequence without
indentation only where it is the key or the value of a block mapping. -/
def node (blockAllowed unindentedAllowed : Bool) : (fuel : Nat) → Parse Node
  | 0 => malformed
  | fuel + 1 => do
    match ← peek with
    | .alias name => aliased name
    | _ =>
      let (anchor, written) ← properties
      let tag ← written.mapM address
      match ← peek with
      | .scalar text isPlain =>
        pass
        anchored anchor (return .scalar (scalarTag tag text isPlain) text)
      | .flowSequenceStart =>
        pass
        anchored anchor
          (return .sequence (collectionTag tag .sequence) (← flowSequence true fuel))
      | .flowMappingStart =>
        pass
        anchored anchor (return .mapping (collectionTag tag .mapping) (← flowMapping true fuel))
      | .blockEntry =>
        if unindentedAllowed then
          anchored anchor
            (return .sequence (collectionTag tag .sequence) (← unindentedSequence fuel))
        else missingWith anchor tag
      | .blockSequenceStart =>
        if blockAllowed then
          pass
          anchored anchor (return .sequence (collectionTag tag .sequence) (← blockSequence fuel))
        else missingWith anchor tag
      | .blockMappingStart =>
        if blockAllowed then
          pass
          anchored anchor (return .mapping (collectionTag tag .mapping) (← blockMapping fuel))
        else missingWith anchor tag
      | _ => missingWith anchor tag

/-- A node of which there is nothing but an anchor or a tag. -/
def missingWith (anchor tag : Option String) : Parse Node := do
  if anchor.isNone ∧ tag.isNone then malformed
  else anchored anchor (return .scalar (scalarTag tag "" true) "")

/-- A node, unless the next token shows that it is missing. -/
def nodeUnless (stops : List Token) (blockAllowed unindentedAllowed : Bool) :
    (fuel : Nat) → Parse Node
  | 0 => malformed
  | fuel + 1 => do
    if ← atAny stops then return .missing else node blockAllowed unindentedAllowed fuel

def blockSequence : (fuel : Nat) → Parse (List Node)
  | 0 => malformed
  | fuel + 1 => do
    if ← atAny [.blockEntry] then
      pass
      let item ← nodeUnless [.blockEntry, .blockEnd] true false fuel
      return item :: (← blockSequence fuel)
    else
      expect .blockEnd
      return []

def unindentedSequence : (fuel : Nat) → Parse (List Node)
  | 0 => malformed
  | fuel + 1 => do
    if ← atAny [.blockEntry] then
      pass
      let item ← nodeUnless [.blockEntry, .key, .value, .blockEnd] true false fuel
      return item :: (← unindentedSequence fuel)
    else return []

def blockMapping : (fuel : Nat) → Parse (List (Node × Node))
  | 0 => malformed
  | fuel + 1 => do
    if ← atAny [.key] then
      pass
      let key ← nodeUnless [.key, .value, .blockEnd] true true fuel
      let value ← if ← atAny [.value] then do
          pass
          nodeUnless [.key, .value, .blockEnd] true true fuel
        else pure .missing
      return (key, value) :: (← blockMapping fuel)
    else
      expect .blockEnd
      return []

/-- The key and the value of an entry in a flow collection, after the mark of the key. -/
def flowPair (closing : Token) : (fuel : Nat) → Parse (Node × Node)
  | 0 => malformed
  | fuel + 1 => do
    let key ← nodeUnless [.value, .flowEntry, closing] false false fuel
    let value ← if ← atAny [.value] then do
        pass
        nodeUnless [.flowEntry, closing] false false fuel
      else pure .missing
    return (key, value)

def flowSequence (isFirst : Bool) : (fuel : Nat) → Parse (List Node)
  | 0 => malformed
  | fuel + 1 => do
    if ← atAny [.flowSequenceEnd] then
      pass
      return []
    unless isFirst do expect .flowEntry
    if ← atAny [.key] then
      pass
      let pair ← flowPair .flowSequenceEnd fuel
      return .mapping .mapping [pair] :: (← flowSequence false fuel)
    else if ← atAny [.flowSequenceEnd] then
      pass
      return []
    else
      let item ← node false false fuel
      return item :: (← flowSequence false fuel)

def flowMapping (isFirst : Bool) : (fuel : Nat) → Parse (List (Node × Node))
  | 0 => malformed
  | fuel + 1 => do
    if ← atAny [.flowMappingEnd] then
      pass
      return []
    unless isFirst do expect .flowEntry
    if ← atAny [.key] then
      pass
      let pair ← flowPair .flowMappingEnd fuel
      return pair :: (← flowMapping false fuel)
    else if ← atAny [.flowMappingEnd] then
      pass
      return []
    else
      let key ← node false false fuel
      return (key, .missing) :: (← flowMapping false fuel)

end

def usualHandles : List (String × String) :=
  [("!", "!"), ("!!", Tag.standardAddress)]

/-- The directives of a document, of which a version and each tag handle may occur once. -/
def directives : (fuel : Nat) → (versionSeen : Bool) → Parse Unit
  | 0, _ => malformed
  | fuel + 1, versionSeen => do
    match ← peek with
    | .directive (.version major) =>
      if versionSeen ∨ major ≠ 1 then malformed
      pass
      directives fuel true
    | .directive (.tag handle start) =>
      if ((← get).handles.lookup handle).isSome then malformed
      pass
      modify fun parser => { parser with handles := (handle, start) :: parser.handles }
      directives fuel versionSeen
    | .directive .other =>
      pass
      directives fuel versionSeen
    | _ => pure ()

def addUsualHandles : Parse Unit :=
  modify fun parser => { parser with handles := parser.handles ++ usualHandles }

def skipDocumentEnds : (fuel : Nat) → Parse Unit
  | 0 => pure ()
  | fuel + 1 => do
    if ← atAny [.documentEnd] then
      pass
      skipDocumentEnds fuel

/-- The content of a document that begins with a mark. -/
def explicitDocument (fuel : Nat) : Parse Node := do
  directives fuel false
  addUsualHandles
  expect .documentStart
  match ← peek with
  | .directive _ | .documentStart | .documentEnd | .streamEnd => return .missing
  | _ => node true false fuel

/-- The only document of a stream; an empty stream counts as a missing node. -/
def document (fuel : Nat) : Parse Node := do
  let content ← match ← peek with
    | .streamEnd => pure .missing
    | .directive _ | .documentStart => explicitDocument fuel
    | _ => do
      addUsualHandles
      node true false fuel
  skipDocumentEnds fuel
  expect .streamEnd
  return content

end Parse

/-- An upper bound of the steps that parsing some tokens takes: each token takes three at most. -/
def parseFuel (tokens : List Token) : Nat :=
  3 * tokens.length + 3

def Node.ofTokens (tokens : List Token) : Except Error Node :=
  return (← (Parse.document (parseFuel tokens)).run { tokens }).1

end RiskScan.Yaml
