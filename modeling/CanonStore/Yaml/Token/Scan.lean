import CanonStore.Yaml.Token.Property

/-!
# Reading tokens

`Tokens.ofText` splits a document into tokens. Whether a scalar or collection is a key shows only at
the colon after it, so the reader remembers where a key may have started and puts the tokens in front
of it then. A token that may still turn out to be a key is not given out before that is settled.
-/

namespace CanonStore.Yaml

/-- A token that may be the start of a key. -/
structure PendingKey where
  /-- How many tokens come before it. -/
  number : Nat
  /-- Nothing but a key can stand here. -/
  isRequired : Bool
  index : Nat
  line : Nat
  column : Nat

/-- How far the reader has come. -/
structure Scan where
  cursor : Cursor
  /-- The tokens so far, last first. -/
  tokens : List Token
  count : Nat
  /-- The columns of the open block collections, innermost first. -/
  indents : List Nat
  /-- A key may start here. -/
  canStartKey : Bool
  /-- What may be a key in the innermost open flow collection, or outside of all of them. -/
  key : Option PendingKey
  /-- The same for what is around each open flow collection, innermost first. -/
  outer : List (Option PendingKey)
  isDone : Bool

namespace Scan

def ofText (t : Text) : Scan := ⟨.ofText t, [], 0, [], true, none, [], false⟩

def inFlow (s : Scan) : Bool := !s.outer.isEmpty

/-- The column of the innermost block collection, negative outside of all of them. -/
def indent (s : Scan) : Int :=
  match s.indents with
  | [] => -1
  | n :: _ => n

def push (t : Token) (s : Scan) : Scan := { s with tokens := t :: s.tokens, count := s.count + 1 }

/-- Adds a token in front of the one that comes after the first `n`. -/
def insert (n : Nat) (t : Token) (s : Scan) : Scan :=
  let later := s.count - n
  { s with tokens := s.tokens.take later ++ t :: s.tokens.drop later, count := s.count + 1 }

def moveTo (c : Cursor) (s : Scan) : Scan := { s with cursor := c }

/-! ## Keys -/

def forgetKey (s : Scan) : Except YamlFault Scan :=
  match s.key with
  | none => .ok s
  | some k => if k.isRequired then .error badToken else .ok { s with key := none }

/-- A key has to fit on one line of at most 1024 code points. -/
def isStale (c : Cursor) (k : PendingKey) : Bool := k.line ≠ c.line || k.index + 1024 < c.index

def forgetStale (s : Scan) : Except YamlFault Scan :=
  let stale (k : Option PendingKey) : Bool := k.any (isStale s.cursor)
  -- A key that had to come did not end on its line.
  if (s.key :: s.outer).any fun k => stale k && k.any (·.isRequired) then .error badToken
  else
    let keep (k : Option PendingKey) : Option PendingKey := if stale k then none else k
    .ok { s with key := keep s.key, outer := s.outer.map keep }

/-- Remembers that the next token may be a key, if a key may start here. -/
def offerKey (s : Scan) : Except YamlFault Scan :=
  if s.canStartKey then
    -- At the column of the open block collection nothing but a key may start.
    let isRequired := !s.inFlow && s.indent = s.cursor.column
    s.forgetKey.map fun s =>
      { s with key := some ⟨s.count, isRequired, s.cursor.index, s.cursor.line, s.cursor.column⟩ }
  else .ok s

/-- The tokens that come before everything that may still be a key. -/
def settled (s : Scan) : List Token :=
  let first := (s.key :: s.outer).foldl (fun n k => min n ((k.map (·.number)).getD n)) s.count
  (s.tokens.drop (s.count - first)).reverse

/-! ## Indentation -/

/-- Closes the block collections that are indented further than a column. -/
def closeBlocks (column : Int) : List Nat → List Nat × Nat
  | [] => ([], 0)
  | n :: rest =>
    if column < n then
      let (open_, closed) := closeBlocks column rest
      (open_, closed + 1)
    else (n :: rest, 0)

/-- Ends the block collections that are indented further than a column. -/
def unindent (column : Int) (s : Scan) : Scan :=
  -- Columns mean nothing inside a flow collection.
  if s.inFlow then s
  else
    let (indents, closed) := closeBlocks column s.indents
    { s with
      indents
      tokens := List.replicate closed .blockEnd ++ s.tokens
      count := s.count + closed }

/-- A block collection starts at a column, unless one that is indented as far is open. -/
def startsBlock (column : Nat) (s : Scan) : Bool := s.indent < column

def openBlock (column : Nat) (s : Scan) : Scan := { s with indents := column :: s.indents }

/-! ## Single tokens -/

/-- The cursor at the next token: blanks, comments and line ends are skipped. Outside of flow
collections a key may start on every new line. -/
def skipToToken : Nat → Scan → Scan
  | 0, s => s
  | rounds + 1, s =>
    let c := s.cursor.skipBlanks.skipComment
    if c.peek.any isBreak then
      skipToToken rounds { s with cursor := c.next, canStartKey := s.canStartKey || !s.inFlow }
    else s.moveTo c

/-- Ends all that is open before a token that stands outside of all collections. -/
def closeAll (s : Scan) : Except YamlFault Scan := do
  let s ← (s.unindent (-1)).forgetKey
  pure { s with canStartKey := false }

def finish (s : Scan) : Except YamlFault Scan := do
  let s ← s.closeAll
  pure { s.push .streamEnd with key := none, outer := s.outer.map fun _ => none, isDone := true }

/-- A token of three code points outside of all collections. -/
def separator (t : Token) (s : Scan) : Except YamlFault Scan := do
  let s ← s.closeAll
  pure ((s.moveTo (s.cursor.skip 3)).push t)

def directive (s : Scan) : Except YamlFault Scan := do
  let s ← s.closeAll
  let (d, c) ← Yaml.directive s.cursor
  pure ((s.moveTo c).push (.directive d))

def openFlow (t : Token) (s : Scan) : Except YamlFault Scan := do
  let s ← s.offerKey
  pure { (s.moveTo s.cursor.next).push t with key := none, outer := s.key :: s.outer, canStartKey := true }

/-- The bracket that closes a flow collection. One that closes nothing is left to the grammar. -/
def closeFlow (t : Token) (s : Scan) : Except YamlFault Scan := do
  let s ← s.forgetKey
  let s := { (s.moveTo s.cursor.next).push t with canStartKey := false }
  pure (match s.outer with
    | [] => s
    | key :: outer => { s with key, outer })

/-- The comma between entries of a flow collection. -/
def flowEntry (s : Scan) : Except YamlFault Scan := do
  let s ← s.forgetKey
  pure { (s.moveTo s.cursor.next).push .flowEntry with canStartKey := true }

/-- Opens a block collection at the cursor if need be. Outside of flow collections it takes a place
where a key may start. -/
def startBlockHere (t : Token) (s : Scan) : Except YamlFault Scan :=
  if s.inFlow then .ok s
  else if !s.canStartKey then .error badToken
  else if s.startsBlock s.cursor.column then .ok ((s.openBlock s.cursor.column).push t)
  else .ok s

/-- The hyphen in front of an entry of a block sequence. -/
def blockEntry (s : Scan) : Except YamlFault Scan := do
  let s ← s.startBlockHere .blockSequenceStart
  let s ← { s with canStartKey := true }.forgetKey
  pure ((s.moveTo s.cursor.next).push .blockEntry)

def explicitKey (s : Scan) : Except YamlFault Scan := do
  let s ← s.startBlockHere .blockMappingStart
  let s ← { s with canStartKey := !s.inFlow }.forgetKey
  pure ((s.moveTo s.cursor.next).push .key)

/-- The colon in front of a value. What may have been a key now is one. -/
def value (s : Scan) : Except YamlFault Scan := do
  let s ←
    match s.key with
    | some k =>
      -- The sign for a key goes in front of the tokens that turned out to be one, and the start of the
      -- mapping in front of that.
      let s := { s.insert k.number .key with key := none, canStartKey := false }
      if !s.inFlow && s.startsBlock k.column then
        pure ((s.openBlock k.column).insert k.number .blockMappingStart)
      else pure s
    | none => do
      let s ← s.startBlockHere .blockMappingStart
      { s with canStartKey := !s.inFlow }.forgetKey
  pure ((s.moveTo s.cursor.next).push .value)

/-- A token that may be a key, read by a function. -/
def keyToken (read : Cursor → Except YamlFault (Token × Cursor)) (s : Scan) : Except YamlFault Scan := do
  let s ← s.offerKey
  let (t, c) ← read s.cursor
  pure { (s.moveTo c).push t with canStartKey := false }

def reference (s : Scan) : Except YamlFault Scan :=
  s.keyToken fun c => (name c.next).map fun r => (.reference r.1, r.2)

def anchor (s : Scan) : Except YamlFault Scan :=
  s.keyToken fun c => (name c.next).map fun r => (.anchor r.1, r.2)

def tag (s : Scan) : Except YamlFault Scan :=
  s.keyToken fun c => (Yaml.tag c).map fun r => (.tag r.1 r.2.1, r.2.2)

def quoted (isDouble : Bool) (s : Scan) : Except YamlFault Scan :=
  s.keyToken fun c => (Yaml.quoted isDouble c).map fun r => (.scalar r.1 false, r.2)

/-- A block scalar. It is no key, but a key may follow it. -/
def blockScalar (folded : Bool) (s : Scan) : Except YamlFault Scan := do
  let s ← { s with canStartKey := true }.forgetKey
  let (t, c) ← Yaml.blockScalar folded s.indent s.cursor
  pure ((s.moveTo c).push (.scalar t false))

/-- A plain scalar. A key may follow it on the next line. -/
def plain (s : Scan) : Except YamlFault Scan := do
  let s ← s.offerKey
  let (t, c, broken) := Yaml.plain s.inFlow (s.indent + 1).toNat s.cursor
  pure { (s.moveTo c).push (.scalar t true) with canStartKey := broken }

/-- A plain scalar may start with a code point that is followed by another. -/
def startsPlain (inFlow : Bool) (ch : CodePoint) (following : Option CodePoint) : Bool :=
  !(endsWord (some ch) || isOneOf "-?:,[]\x7b\x7d#&*!|>'\"%@\x60" ch) ||
    (!endsWord following && (ch = '-' || (!inFlow && (ch = '?' || ch = ':'))))

/-! ## The whole document -/

/-- Reads the token that starts with a code point. -/
def readToken (ch : CodePoint) (s : Scan) : Except YamlFault Scan :=
  let c := s.cursor
  let atMargin := c.column = 0
  let beforeSpace := endsWord (c.peekAt 1)
  -- Signs at the margin come first: three hyphens there are no entry and no plain scalar.
  if ch = '%' && atMargin then s.directive
  else if ch = '-' && atMargin && c.seesSeparator then s.separator .documentStart
  else if ch = '.' && atMargin && c.seesSeparator then s.separator .documentEnd
  else if ch = '[' then s.openFlow .flowSequenceStart
  else if ch = 0x7B then s.openFlow .flowMappingStart
  else if ch = ']' then s.closeFlow .flowSequenceEnd
  else if ch = 0x7D then s.closeFlow .flowMappingEnd
  else if ch = ',' then s.flowEntry
  else if ch = '-' && beforeSpace then s.blockEntry
  else if ch = '?' && (s.inFlow || beforeSpace) then s.explicitKey
  else if ch = ':' && (s.inFlow || beforeSpace) then s.value
  else if ch = '*' then s.reference
  else if ch = '&' then s.anchor
  else if ch = '!' then s.tag
  else if ch = '|' && !s.inFlow then s.blockScalar false
  else if ch = '>' && !s.inFlow then s.blockScalar true
  else if ch = 0x27 then s.quoted false
  else if ch = 0x22 then s.quoted true
  -- Nothing else starts with this code point.
  else if startsPlain s.inFlow ch (c.peekAt 1) then s.plain
  else .error badToken

def step (s : Scan) : Except YamlFault Scan := do
  let s ← (s.skipToToken (s.cursor.rest.length + 1)).forgetStale
  let s := s.unindent s.cursor.column
  match s.cursor.peek with
  | none => s.finish
  | some ch => s.readToken ch

/-- Reads tokens to the end. Every round uses up at least one code point, save the last. -/
def run : Nat → Scan → Tokens
  | 0, s => ⟨s.settled, some badToken⟩
  | rounds + 1, s =>
    if s.isDone then ⟨s.tokens.reverse, none⟩
    else match s.forgetStale with
      | .error fault => ⟨s.settled, some fault⟩
      | .ok s =>
        match s.step with
        | .error fault => ⟨s.settled, some fault⟩
        | .ok t => run rounds t

end Scan

/-- The tokens of a document. A byte order mark in front is skipped. -/
def Tokens.ofText (t : Text) : Tokens :=
  if t.all isPrintable then
    let s := Scan.ofText t
    Scan.run (t.length + 2) (if t.head? = some 0xFEFF then s.moveTo s.cursor.next else s)
  else ⟨[], some (.malformed .character)⟩

end CanonStore.Yaml
