import ScopeLexer.Yaml.Token

/-!
# Documents

`Document.ofText` reads the tree of nodes that a text describes.  A text holds one document.  An
alias stands for the node with its anchor; nodes with an anchor have numbers, and a `Document` lists
the node for each number.
-/

namespace ScopeLexer.Yaml

/-- A node of a document.  Tags are written out in full. -/
inductive Node where
  | scalar (tag : Option (List Char)) (isPlain : Bool) (text : List Char)
  | sequence (tag : Option (List Char)) (items : List Node)
  | mapping (tag : Option (List Char)) (entries : List (Node × Node))
  | aliasOf (target : Nat)
  deriving Inhabited

def Node.empty : Node := .scalar none true []

structure Document where
  root : Node
  targets : List (Nat × Node)
  size : Nat
  deriving Inhabited

/-! ## The state of a parse -/

structure Parse where
  tokens : List Token
  handles : List (List Char × List Char) := []
  anchors : List (List Char × Nat) := []
  /-- For each number the position of the node that has it, the current one first. -/
  owners : List (Nat × Nat) := []
  complete : List (Nat × Node) := []
  begun : Nat := 0
  size : Nat := 0
  deriving Inhabited

abbrev Parser := StateT Parse (Except Fault)

def peek : Parser (Option Token) := return (← get).tokens.head?

def advance : Parser Unit := modify fun parse => { parse with tokens := parse.tokens.tail }

def count (events : Nat) : Parser Unit :=
  modify fun parse => { parse with size := parse.size + events }

def emptyNode : Parser Node := do
  count 1
  return .empty

def resolveTag (handle suffix : List Char) : Parser (List Char) := do
  if handle.isEmpty then return suffix
  match (← get).handles.lookup handle with
  | some target => return target ++ suffix
  | none => throw ⟨.undefinedTag, some .node⟩

def anchor? : Parser (Option (List Char)) := do
  match ← peek with
  | some (.anchor name) =>
      advance
      return some name
  | _ => return none

def tag? : Parser (Option (List Char)) := do
  match ← peek with
  | some (.tag handle suffix) =>
      advance
      return some (← resolveTag handle suffix)
  | _ => return none

def properties : Parser (Option (List Char) × Option (List Char)) := do
  match ← anchor? with
  | some anchor => return (some anchor, ← tag?)
  | none =>
      match ← tag? with
      | some tag => return (← anchor?, some tag)
      | none => return (none, none)

/-- Begin a node with an anchor.  Its number is that of the anchors before it. -/
def beginAnchored (name : List Char) : Parser Nat := do
  let parse ← get
  let number := parse.anchors.length
  let anchors := (name, number) :: parse.anchors.filter fun anchor => anchor.1 != name
  set { parse with
    anchors
    owners := (number, parse.begun) :: parse.owners
    begun := parse.begun + 1 }
  return parse.begun

def endAnchored (position : Nat) (node : Node) : Parser Unit :=
  modify fun parse => { parse with complete := (position, node) :: parse.complete }

/-! ## Nodes -/

mutual

/-- Read a node.  `inBlock` allows block collections, `indentless` also a block sequence that is not
indented. -/
def parseNode : (fuel : Nat) → (inBlock indentless : Bool) → Parser Node
  | 0, _, _ => throw ⟨.expectedNode, some .node⟩
  | fuel + 1, inBlock, indentless => do
      match ← peek with
      | some (.aliasOf name) =>
          advance
          count 1
          match (← get).anchors.lookup name with
          | some number => return .aliasOf number
          | none => throw { problem := .unknownAnchor }
      | _ =>
          let (anchor, tag) ← properties
          match anchor with
          | none => parseContent fuel inBlock indentless false tag
          | some name =>
              let position ← beginAnchored name
              let node ← parseContent fuel inBlock indentless true tag
              endAnchored position node
              return node

def parseContent : (fuel : Nat) → (inBlock indentless anchored : Bool) →
    (tag : Option (List Char)) → Parser Node
  | 0, _, _, _, _ => throw ⟨.expectedNode, some .node⟩
  | fuel + 1, inBlock, indentless, anchored, tag => do
      match ← peek with
      | some (.scalar isPlain text) =>
          advance
          count 1
          return .scalar tag isPlain text
      | some .flowSequenceStart =>
          advance
          count 2
          return .sequence tag (← parseFlowItems fuel true)
      | some .flowMappingStart =>
          advance
          count 2
          return .mapping tag (← parseFlowEntries fuel true)
      | token =>
          if indentless && token == some .blockEntry then
            count 2
            return .sequence tag (← parseIndentlessItems fuel)
          else if inBlock && token == some .blockSequenceStart then
            advance
            count 2
            return .sequence tag (← parseBlockItems fuel)
          else if inBlock && token == some .blockMappingStart then
            advance
            count 2
            return .mapping tag (← parseBlockEntries fuel)
          else if anchored || tag.isSome then
            count 1
            return .scalar tag true []
          else
            throw ⟨.expectedNode, some (if inBlock then .blockNode else .flowNode)⟩

def parseBlockPart : (fuel : Nat) → (indentless : Bool) → (ends : List Token) → Parser Node
  | 0, _, _ => throw ⟨.expectedNode, some .node⟩
  | fuel + 1, indentless, ends => do
      match ← peek with
      | some token => if ends.contains token then emptyNode else parseNode fuel true indentless
      | none => parseNode fuel true indentless

def parseFlowPart : (fuel : Nat) → (ends : List Token) → Parser Node
  | 0, _ => throw ⟨.expectedNode, some .node⟩
  | fuel + 1, ends => do
      match ← peek with
      | some token => if ends.contains token then emptyNode else parseNode fuel false false
      | none => parseNode fuel false false

def parseBlockItems : (fuel : Nat) → Parser (List Node)
  | 0 => throw ⟨.expectedDash, some .blockSequence⟩
  | fuel + 1 => do
      match ← peek with
      | some .blockEntry =>
          advance
          let item ← parseBlockPart fuel false [.blockEntry, .blockEnd]
          return item :: (← parseBlockItems fuel)
      | some .blockEnd =>
          advance
          return []
      | _ => throw ⟨.expectedDash, some .blockSequence⟩

def parseIndentlessItems : (fuel : Nat) → Parser (List Node)
  | 0 => throw ⟨.expectedDash, some .blockSequence⟩
  | fuel + 1 => do
      match ← peek with
      | some .blockEntry =>
          advance
          let item ← parseBlockPart fuel false [.blockEntry, .key, .value, .blockEnd]
          return item :: (← parseIndentlessItems fuel)
      | _ => return []

def parseBlockEntries : (fuel : Nat) → Parser (List (Node × Node))
  | 0 => throw ⟨.expectedKey, some .blockMapping⟩
  | fuel + 1 => do
      match ← peek with
      | some .key =>
          advance
          let key ← parseBlockPart fuel true [.key, .value, .blockEnd]
          let value ← parseBlockValue fuel
          return (key, value) :: (← parseBlockEntries fuel)
      | some .blockEnd =>
          advance
          return []
      | _ => throw ⟨.expectedKey, some .blockMapping⟩

def parseBlockValue : (fuel : Nat) → Parser Node
  | 0 => throw ⟨.expectedNode, some .node⟩
  | fuel + 1 => do
      match ← peek with
      | some .value =>
          advance
          parseBlockPart fuel true [.key, .value, .blockEnd]
      | _ => emptyNode

def parseFlowItems : (fuel : Nat) → (isFirst : Bool) → Parser (List Node)
  | 0, _ => throw ⟨.expectedSequenceEnd, some .flowSequence⟩
  | fuel + 1, isFirst => do
      if (← peek) == some .flowSequenceEnd then
        advance
        return []
      if !isFirst then
        if (← peek) != some .flowEntry then throw ⟨.expectedSequenceEnd, some .flowSequence⟩
        advance
      match ← peek with
      | some .flowSequenceEnd =>
          advance
          return []
      | some .key =>
          advance
          let pair ← parseFlowPair fuel
          return pair :: (← parseFlowItems fuel false)
      | _ =>
          let item ← parseNode fuel false false
          return item :: (← parseFlowItems fuel false)

/-- Read a mapping of one entry within a flow sequence, whose question mark is behind.  The token
behind a key that is not written belongs to it. -/
def parseFlowPair : (fuel : Nat) → Parser Node
  | 0 => throw ⟨.expectedSequenceEnd, some .flowSequence⟩
  | fuel + 1 => do
      count 2
      let key ← match ← peek with
        | some token =>
            if [Token.value, .flowEntry, .flowSequenceEnd].contains token then
              advance
              emptyNode
            else
              parseNode fuel false false
        | none => parseNode fuel false false
      let value ← parseFlowValue fuel .flowSequenceEnd
      return .mapping none [(key, value)]

def parseFlowValue : (fuel : Nat) → (close : Token) → Parser Node
  | 0, _ => throw ⟨.expectedNode, some .node⟩
  | fuel + 1, close => do
      match ← peek with
      | some .value =>
          advance
          parseFlowPart fuel [.flowEntry, close]
      | _ => emptyNode

def parseFlowEntries : (fuel : Nat) → (isFirst : Bool) → Parser (List (Node × Node))
  | 0, _ => throw ⟨.expectedMappingEnd, some .flowMapping⟩
  | fuel + 1, isFirst => do
      if (← peek) == some .flowMappingEnd then
        advance
        return []
      if !isFirst then
        if (← peek) != some .flowEntry then throw ⟨.expectedMappingEnd, some .flowMapping⟩
        advance
      match ← peek with
      | some .flowMappingEnd =>
          advance
          return []
      | some .key =>
          advance
          let key ← parseFlowPart fuel [.value, .flowEntry, .flowMappingEnd]
          let value ← parseFlowValue fuel .flowMappingEnd
          return (key, value) :: (← parseFlowEntries fuel false)
      | _ =>
          let key ← parseNode fuel false false
          count 1
          return (key, .empty) :: (← parseFlowEntries fuel false)

end

/-! ## Documents -/

def parseDirectives : (fuel : Nat) → (versioned : Bool) → Parser Unit
  | 0, _ => return
  | fuel + 1, versioned => do
      match ← peek with
      | some .versionDirective =>
          if versioned then throw { problem := .duplicateVersion }
          advance
          parseDirectives fuel true
      | some (.tagDirective handle target) =>
          if ((← get).handles.lookup handle).isSome then throw { problem := .duplicateTag }
          modify fun parse => { parse with handles := parse.handles ++ [(handle, target)] }
          advance
          parseDirectives fuel versioned
      | _ => return

def commonHandles : List (List Char × List Char) :=
  [(['!'], ['!']), (['!', '!'], "tag:yaml.org,2002:".toList)]

def isExplicit : Token → Bool
  | .versionDirective => true
  | .tagDirective _ _ => true
  | .documentStart => true
  | _ => false

def parseRoot (fuel : Nat) : Parser Node := do
  match ← peek with
  | none => emptyNode
  | some token =>
      if isExplicit token then
        parseDirectives fuel false
        if (← peek) != some .documentStart then throw { problem := .expectedDocumentStart }
        advance
        modify fun parse => { parse with handles := parse.handles ++ commonHandles }
        match ← peek with
        | none | some .documentEnd => emptyNode
        | some token => if isExplicit token then emptyNode else parseNode fuel true false
      else
        modify fun parse => { parse with handles := commonHandles }
        parseNode fuel true false

namespace Document

def ofTokens (tokens : List Token) : Except Fault Document := do
  let (root, parse) ← (parseRoot (4 * tokens.length + 4)).run { tokens }
  match parse.tokens.dropWhile (· == .documentEnd) with
  | [] =>
      let targets := parse.owners.filterMap fun (number, position) =>
        (parse.complete.lookup position).map (number, ·)
      return { root, targets, size := parse.size }
  | token :: _ =>
      if isExplicit token then throw { problem := .severalDocuments }
      throw { problem := .expectedDocumentStart }

def ofText (text : List Char) : Except Fault Document := do
  ofTokens (← tokensOf text)

def target? (document : Document) (number : Nat) : Option Node :=
  document.targets.lookup number

end Document

end ScopeLexer.Yaml
