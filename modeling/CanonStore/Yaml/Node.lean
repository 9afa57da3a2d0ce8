import CanonStore.Yaml.Tag
import CanonStore.Yaml.Token.Scan

/-!
# Nodes

A document is a tree of nodes: scalars, sequences and mappings, each with a tag. `Node.ofTokens` reads
the tree from tokens; aliases stand for the nodes that they name, so the tree has none.
-/

namespace CanonStore.Yaml

/-- A node. -/
inductive Node where
  | scalar (tag : Tag) (text : Text)
  | sequence (tag : Tag) (items : List Node)
  | mapping (tag : Tag) (entries : List (Node × Node))
  /-- An alias of a collection that it lies in. -/
  | enclosing (shape : EndlessShape)

namespace Node

instance : Inhabited Node := ⟨.scalar .null []⟩

/-- What an anchor names. -/
inductive Anchored where
  | node (n : Node)
  /-- A collection that is still being read. -/
  | unfinished (shape : EndlessShape)

/-- What is still to be read, and what has been declared. -/
structure Reading where
  tokens : List Token
  /-- What goes wrong after the last of the tokens. -/
  fault : YamlFault
  anchors : List (Text × Anchored)
  /-- What the handles of tags stand for. -/
  handles : List (Text × Text)

/-- A part of reading nodes. -/
abbrev Read := StateT Reading (Except YamlFault)

/-- The tokens break a rule of the grammar. -/
abbrev badEvent : YamlFault := .malformed .event

/-- The node breaks a rule on anchors and documents. -/
abbrev badNode : YamlFault := .malformed .node

def peek : Read Token := do
  let s ← get
  match s.tokens with
  | [] => throw s.fault
  | t :: _ => pure t

def advance : Read Unit := modify fun s => { s with tokens := s.tokens.tail }

def seesOneOf (ts : List Token) : Read Bool := do
  let t ← peek
  pure (ts.contains t)

def accept (t : Token) : Read Bool := do
  if (← peek) = t then
    advance
    pure true
  else pure false

/-! ## Properties -/

/-- The anchor and the tag of a node. -/
structure Properties where
  anchor : Option Text
  tag : Option (Option Text × Text)

def anchor? : Read (Option Text) := do
  match ← peek with
  | .anchor name =>
    advance
    pure (some name)
  | _ => pure none

def tag? : Read (Option (Option Text × Text)) := do
  match ← peek with
  | .tag handle suffix =>
    advance
    pure (some (handle, suffix))
  | _ => pure none

def properties : Read Properties := do
  match ← anchor? with
  | some name => return ⟨some name, ← tag?⟩
  | none =>
    match ← tag? with
    | some tag => return ⟨← anchor?, some tag⟩
    | none => return ⟨none, none⟩

/-- The full name of a tag; the exclamation mark alone is no tag. -/
def fullTag (tag : Option (Option Text × Text)) : Read (Option Text) := do
  match tag with
  | none => pure none
  | some (none, suffix) => pure (some suffix)
  | some (some handle, suffix) =>
    match (← get).handles.find? fun h => h.1 = handle with
    | some (_, base) => pure (some (base ++ suffix))
    | none => throw badEvent

/-- The exclamation mark, which leaves the tag of a node open. -/
def openTag : Text := "!"

def collectionTag (usual : Tag) (tag : Option Text) : Tag :=
  match tag with
  | none => usual
  | some t => if t = openTag then usual else .ofText t

def scalarTag (isPlain : Bool) (text : Text) (tag : Option Text) : Tag :=
  match tag with
  -- Text between quotes or in a block is never looked at for being a number or a word.
  | none => if isPlain then .ofPlain text else .text
  -- The open tag makes a text plain, however it is written.
  | some t => if t = openTag then .ofPlain text else .ofText t

/-! ## Anchors -/

def claim (anchor : Option Text) : Read Unit := do
  match anchor with
  | none => pure ()
  | some name => if (← get).anchors.any fun a => a.1 = name then throw badNode else pure ()

def bind (anchor : Option Text) (a : Anchored) : Read Unit :=
  match anchor with
  | none => pure ()
  | some name => modify fun s => { s with anchors := (name, a) :: s.anchors }

/-- Reads a node that carries an anchor; while it is read the anchor names a collection of a shape. -/
def anchored (anchor : Option Text) (shape : EndlessShape) (read : Read Node) : Read Node := do
  claim anchor
  -- An alias met while the node is read means the collection around it.
  bind anchor (.unfinished shape)
  let n ← read
  bind anchor (.node n)
  pure n

def ofAlias (name : Text) : Read Node := do
  match (← get).anchors.find? fun a => a.1 = name with
  | some (_, .node n) => pure n
  | some (_, .unfinished shape) => pure (.enclosing shape)
  | none => throw badNode

/-! ## Grammar -/

/-- Where a node stands. -/
inductive Context where
  /-- In a flow collection. -/
  | flow
  /-- In a block sequence or at the top. -/
  | block
  /-- In a block mapping, where a sequence need not be indented. -/
  | entry
deriving DecidableEq

def missing : Node := .scalar .null []

def readScalar (anchor : Option Text) (tag : Tag) (text : Text) : Read Node := do
  claim anchor
  bind anchor (.node (.scalar tag text))
  pure (.scalar tag text)

/-- A node without content has to have an anchor or a tag. -/
def emptyNode (anchor tag : Option Text) : Read Node :=
  if anchor.isNone && tag.isNone then throw badEvent
  else readScalar anchor (scalarTag true [] tag) []

/-- How many collections may lie inside one another. Each puts two frames on the stack. -/
def maxDepth : Nat := 470

mutual

/-- A node. In this and the functions below `rounds` bounds the number of nested calls, and `depth`
more collections may be opened. -/
def read (context : Context) : Nat → Nat → Read Node
  | 0, _ => throw .tooDeep
  | _, 0 => throw .tooDeep
  | rounds + 1, depth + 1 => do
    match ← peek with
    | .reference name =>
      advance
      ofAlias name
    | _ =>
      let props ← properties
      let tag ← fullTag props.tag
      let sequence (items : Read (List Node)) : Read Node :=
        anchored props.anchor .list do return .sequence (collectionTag .sequence tag) (← items)
      let mapping (entries : Read (List (Node × Node))) : Read Node :=
        anchored props.anchor .dict do return .mapping (collectionTag .mapping tag) (← entries)
      match ← peek with
      | .blockEntry =>
        -- Only in a block mapping may the items stand at its own column, without a token that opens them.
        if context = .entry then sequence (readUnindented rounds depth)
        else emptyNode props.anchor tag
      | .scalar text isPlain =>
        advance
        readScalar props.anchor (scalarTag isPlain text tag) text
      | .flowSequenceStart => sequence do advance; readFlowItems rounds depth true
      | .flowMappingStart => mapping do advance; readFlowEntries rounds depth true
      | .blockSequenceStart =>
        -- A block collection cannot start inside a flow collection.
        if context = .flow then emptyNode props.anchor tag
        else sequence do advance; readBlockItems rounds depth
      | .blockMappingStart =>
        if context = .flow then emptyNode props.anchor tag
        else mapping do advance; readBlockEntries rounds depth
      | _ => emptyNode props.anchor tag
termination_by structural rounds => rounds

/-- A node, unless one of some tokens shows that it is left out. -/
def readUnless (stops : List Token) (context : Context) : Nat → Nat → Read Node
  | 0, _ => throw .tooDeep
  | rounds + 1, depth => do
    if ← seesOneOf stops then pure missing else read context rounds depth
termination_by structural rounds => rounds

def readBlockItems : Nat → Nat → Read (List Node)
  | 0, _ => throw .tooDeep
  | rounds + 1, depth => do
    if ← accept .blockEntry then
      let n ← readUnless [.blockEntry, .blockEnd] .block rounds depth
      let ns ← readBlockItems rounds depth
      pure (n :: ns)
    else if ← accept .blockEnd then pure []
    else throw badEvent
termination_by structural rounds => rounds

/-- The items of a sequence that is indented no further than the mapping that it lies in. -/
def readUnindented : Nat → Nat → Read (List Node)
  | 0, _ => throw .tooDeep
  | rounds + 1, depth => do
    if ← accept .blockEntry then
      let n ← readUnless [.blockEntry, .key, .value, .blockEnd] .block rounds depth
      let ns ← readUnindented rounds depth
      pure (n :: ns)
    else pure []
termination_by structural rounds => rounds

def readBlockEntries : Nat → Nat → Read (List (Node × Node))
  | 0, _ => throw .tooDeep
  | rounds + 1, depth => do
    if ← accept .key then
      let stops : List Token := [.key, .value, .blockEnd]
      let k ← readUnless stops .entry rounds depth
      let v ← if ← accept .value then readUnless stops .entry rounds depth else pure missing
      let es ← readBlockEntries rounds depth
      pure ((k, v) :: es)
    else if ← accept .blockEnd then pure []
    else throw badEvent
termination_by structural rounds => rounds

/-- The items of a flow sequence. A single entry of a mapping may stand as an item. -/
def readFlowItems : Nat → Nat → Bool → Read (List Node)
  | 0, _, _ => throw .tooDeep
  | rounds + 1, depth, isFirst => do
    if ← accept .flowSequenceEnd then pure []
    else
      if !isFirst then
        if !(← accept .flowEntry) then throw badEvent
      -- A comma may stand before the end.
      if ← accept .flowSequenceEnd then pure []
      else
        let n ←
          if ← accept .key then
            match depth with
            | 0 => throw .tooDeep
            -- The entry is a mapping of its own and takes one of the levels.
            | depth + 1 => do
              let k ← readUnless [.value, .flowEntry, .flowSequenceEnd] .flow rounds depth
              let v ←
                if ← accept .value then readUnless [.flowEntry, .flowSequenceEnd] .flow rounds depth
                else pure missing
              pure (.mapping .mapping [(k, v)])
          else read .flow rounds depth
        let ns ← readFlowItems rounds depth false
        pure (n :: ns)
termination_by structural rounds => rounds

/-- The entries of a flow mapping. A key may stand without a value. -/
def readFlowEntries : Nat → Nat → Bool → Read (List (Node × Node))
  | 0, _, _ => throw .tooDeep
  | rounds + 1, depth, isFirst => do
    if ← accept .flowMappingEnd then pure []
    else
      if !isFirst then
        if !(← accept .flowEntry) then throw badEvent
      if ← accept .flowMappingEnd then pure []
      else
        let e ←
          if ← accept .key then do
            let k ← readUnless [.value, .flowEntry, .flowMappingEnd] .flow rounds depth
            let v ←
              if ← accept .value then readUnless [.flowEntry, .flowMappingEnd] .flow rounds depth
              else pure missing
            pure (k, v)
          else do
            let k ← read .flow rounds depth
            pure (k, missing)
        let es ← readFlowEntries rounds depth false
        pure (e :: es)
termination_by structural rounds => rounds

end

/-! ## Documents -/

def standardHandles : List (Text × Text) := [("!", "!"), ("!!", Tag.base)]

/-- The directives in front of a document: at most one version, which has to be 1, and handles, each of
which is declared once. -/
def directives : Nat → Bool → List (Text × Text) → Read Unit
  | 0, _, _ => throw badEvent
  | rounds + 1, versioned, declared => do
    match ← peek with
    | .directive d =>
      advance
      match d with
      | .version major _ =>
        if versioned || major ≠ 1 then throw badEvent else directives rounds true declared
      | .tag handle base =>
        if declared.any fun h => h.1 = handle then throw badEvent
        else directives rounds versioned ((handle, base) :: declared)
      | .other => directives rounds versioned declared
    -- Handles that are declared come first, so they take the place of the standard ones.
    | _ => modify fun s => { s with handles := declared ++ standardHandles }

def skipEnds : Nat → Read Unit
  | 0 => pure ()
  | rounds + 1 => do if ← accept .documentEnd then skipEnds rounds

/-- The start of a document that is marked, or nothing at the end of all documents. -/
def documentStart (rounds : Nat) : Read Bool := do
  skipEnds rounds
  if ← seesOneOf [.streamEnd] then pure false
  else
    directives rounds false []
    if ← accept .documentStart then pure true else throw badEvent

/-- The content of a document whose start is marked. -/
def markedDocument (rounds : Nat) : Read Node := do
  match ← peek with
  | .directive _ | .documentStart | .documentEnd | .streamEnd => pure missing
  | _ => read .block rounds maxDepth

def first? (rounds : Nat) : Read (Option Node) := do
  match ← peek with
  | .directive _ | .documentStart | .streamEnd =>
    if ← documentStart rounds then some <$> markedDocument rounds else pure none
  | _ => some <$> read .block rounds maxDepth

def only? (rounds : Nat) : Read (Option Node) := do
  match ← first? rounds with
  | none => pure none
  | some n => if ← documentStart rounds then throw badNode else pure (some n)

/-- The only document that tokens make, or none if they make none. -/
def ofTokens (ts : Tokens) : Except YamlFault (Option Node) :=
  -- Tokens that end too early without a fault of their own break the grammar.
  let start : Reading := ⟨ts.items, ts.fault.getD badEvent, [], standardHandles⟩
  (only? (3 * ts.items.length + 10)).run' start

end Node

end CanonStore.Yaml
