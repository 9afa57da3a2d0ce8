import CanonStore.Fault

/-!
# Places in a YAML document

What ends a word, a line or an item of a YAML document, and a cursor: the text that is still to be
read, with the line and column where it starts. Lines end in a line feed, U+0085, U+2028 or U+2029.
-/

namespace CanonStore

/-- Kinds of faults of a scalar. -/
inductive ScalarFaultKind where
  | value
  | key
  | index
  | property
  | overflow
deriving DecidableEq

def ScalarFaultKind.toKind : ScalarFaultKind → FaultKind
  | .value => .value
  | .key => .key
  | .index => .index
  | .property => .property
  | .overflow => .overflow

/-- Why a YAML document denotes no value. -/
inductive YamlFault where
  /-- The document breaks a rule of the language, and reading stops at the given stage. -/
  | malformed (stage : MarkupStage)
  /-- Too many collections inside one another. -/
  | tooDeep
  /-- A scalar does not denote what it should. -/
  | scalar (kind : ScalarFaultKind) (message : Text)
deriving DecidableEq

def YamlFault.toFault : YamlFault → Fault
  | .malformed stage => .plain (.markup stage) []
  | .tooDeep => .tooDeep
  | .scalar kind message => .plain kind.toKind message

namespace Yaml

def isBreak (c : CodePoint) : Bool := c = 0x0A || c = 0x85 || c = 0x2028 || c = 0x2029

def isBlank (c : CodePoint) : Bool := c = ' ' || c = 0x09

def endsLine : Option CodePoint → Bool
  | none => true
  | some c => isBreak c

def endsItem : Option CodePoint → Bool
  | none => true
  | some c => c = ' ' || isBreak c

def endsWord : Option CodePoint → Bool
  | none => true
  | some c => isBlank c || isBreak c

def isOneOf (s : String) (c : CodePoint) : Bool := (Text.ofString s).contains c

/-- A letter, a digit, a hyphen or an underscore. -/
def isNameCharacter (c : CodePoint) : Bool := c.isLetter || c.isDigit || isOneOf "-_" c

def isPrintable (c : CodePoint) : Bool :=
  let n := c.val
  n = 0x09 || n = 0x0A || n = 0x0D || (0x20 ≤ n && n ≤ 0x7E) || n = 0x85 || (0xA0 ≤ n && n ≤ 0xD7FF) ||
    (0xE000 ≤ n && n ≤ 0xFFFD) || 0x10000 ≤ n

/-- The text that is still to be read, and where it starts. -/
structure Cursor where
  rest : Text
  /-- Code points in front. -/
  index : Nat
  /-- Line ends in front. -/
  line : Nat
  /-- Code points in front on the same line, byte order marks left out. -/
  column : Nat

namespace Cursor

def ofText (t : Text) : Cursor := ⟨t, 0, 0, 0⟩

def peek (c : Cursor) : Option CodePoint := c.rest.head?

/-- The code point that comes `n` places later. -/
def peekAt (c : Cursor) (n : Nat) : Option CodePoint := c.rest[n]?

def sees (c : Cursor) (ch : Char) : Bool := c.peek = some (CodePoint.ofChar ch)

def next (c : Cursor) : Cursor :=
  match c.rest with
  | [] => c
  | ch :: rest =>
    if isBreak ch then ⟨rest, c.index + 1, c.line + 1, 0⟩
    else if ch = 0xFEFF then ⟨rest, c.index + 1, c.line, c.column⟩
    else ⟨rest, c.index + 1, c.line, c.column + 1⟩

def skip (c : Cursor) : Nat → Cursor
  | 0 => c
  | n + 1 => skip c.next n

/-- The leading run of code points with a property, and the cursor after it. -/
def takeWhile (p : CodePoint → Bool) (c : Cursor) : Text × Cursor :=
  let run := c.rest.takeWhile p
  (run, c.skip run.length)

/-- The cursor after the leading run of code points with a property. -/
def dropWhile (p : CodePoint → Bool) (c : Cursor) : Cursor := (c.takeWhile p).2

def skipBlanks (c : Cursor) : Cursor := c.dropWhile (· = 0x20)

/-- The cursor after a comment, if one starts here. -/
def skipComment (c : Cursor) : Cursor :=
  if c.sees '#' then c.dropWhile fun ch => !isBreak ch else c

/-- The cursor after a line end, if there is one. -/
def skipBreak (c : Cursor) : Cursor := if c.peek.any isBreak then c.next else c

/-- Three hyphens or three points stand here as a word. -/
def seesSeparator (c : Cursor) : Bool :=
  (Text.isPrefix "---" c.rest || Text.isPrefix "..." c.rest) && endsWord (c.peekAt 3)

def breakText (ch : CodePoint) : CodePoint := if ch = 0x85 then 0x0A else ch

/-- What a line end with the line ends `more` after it is folded into: a blank if it stands alone. -/
def fold (first : CodePoint) (more : Text) : Text :=
  if breakText first ≠ 0x0A then breakText first :: more
  else if more.isEmpty then [0x20] else more

end Cursor

end Yaml

end CanonStore
