import CanonStore.Text.Utf8
import CanonStore.Yaml.Token.Scalar

/-!
# Names, tags and directives

The tokens that say something about other parts of the document: anchors and aliases, tags, and
directives.
-/

namespace CanonStore.Yaml

/-- The name of an anchor or alias, from after its sign. -/
def name (c : Cursor) : Except YamlFault (Text × Cursor) :=
  let (name, c) := c.takeWhile isNameCharacter
  if name.isEmpty || !(endsWord c.peek || c.peek.any (isOneOf "?:,]\x7d%@\x60")) then .error badToken
  else .ok (name, c)

/-! ## Tags -/

/-- A handle: an exclamation mark, or a name between two of them. -/
def tagHandle (c : Cursor) : Except YamlFault (Text × Cursor) :=
  if !c.sees '!' then .error badToken
  else
    let (name, after) := c.next.takeWhile isNameCharacter
    if c.peekAt 1 = some 0x20 then .ok ("!", c.next)
    else if after.sees '!' then .ok ("!" ++ name ++ "!", after.next)
    else .error badToken

/-- A code point that may stand in a tag as itself. -/
def isUriCharacter (c : CodePoint) : Bool :=
  c.isLetter || c.isDigit || isOneOf "-;/?:@&=+$,_.!~*'()[]" c

/-- The octets of a run of escapes, each a percent sign and two hexadecimal digits. -/
def uriOctets : Nat → Cursor → Except YamlFault (Bytes × Cursor)
  | 0, c => .ok ([], c)
  | rounds + 1, c =>
    if c.sees '%' then
      let digits := c.next.rest.take 2
      if digits.length = 2 && digits.all CodePoint.isHexDigit then
        (uriOctets rounds (c.skip 3)).map fun r => (UInt8.ofNat (hexNumber digits) :: r.1, r.2)
      else .error badToken
    else .ok ([], c)

/-- The text of a tag up to the first code point that may not stand in it. -/
def uriText : Nat → Cursor → Except YamlFault (Text × Cursor)
  | 0, c => .ok ([], c)
  | rounds + 1, c =>
    match c.peek with
    | none => .ok ([], c)
    | some ch =>
      if isUriCharacter ch then (uriText rounds c.next).map fun r => (ch :: r.1, r.2)
      else if ch = '%' then do
        let (octets, c) ← uriOctets (c.rest.length + 1) c
        match Utf8.decode false octets with
        | .error _ => .error badToken
        | .ok t => (uriText rounds c).map fun r => (t ++ r.1, r.2)
      else .ok ([], c)

def uri (c : Cursor) : Except YamlFault (Text × Cursor) := do
  let (t, c) ← uriText (c.rest.length + 1) c
  if t.isEmpty then .error badToken else .ok (t, c)

/-- An exclamation mark comes before the next blank or line end. -/
def seesHandle (t : Text) : Bool :=
  (t.takeWhile fun ch => !endsItem (some ch)).contains 0x21

/-- A tag: its handle, if it has one, and the rest. -/
def tag (c : Cursor) : Except YamlFault (Option Text × Text × Cursor) := do
  let (handle, suffix, c) ←
    if c.peekAt 1 = some 0x3C then do
      let (t, c) ← uri (c.skip 2)
      if c.sees '>' then pure ((none : Option Text), t, c.next) else .error badToken
    else if endsWord (c.peekAt 1) then pure (none, Text.ofString "!", c.next)
    else do
      let (handle, c) ← if seesHandle c.next.rest then tagHandle c else pure (Text.ofString "!", c.next)
      let (t, c) ← uri c
      pure (some handle, t, c)
  if endsItem c.peek then pure (handle, suffix, c) else .error badToken

/-! ## Directives -/

def versionNumber (c : Cursor) : Except YamlFault (Nat × Cursor) :=
  let (digits, c) := c.takeWhile CodePoint.isDigit
  if digits.isEmpty then .error badToken else .ok (Numeral.toNat digits, c)

def versionDirective (c : Cursor) : Except YamlFault (Directive × Cursor) := do
  let (major, c) ← versionNumber c.skipBlanks
  if !c.sees '.' then .error badToken
  else
    let (minor, c) ← versionNumber c.next
    if endsItem c.peek then pure (.version major minor, c) else .error badToken

/-- The handle that a tag directive declares, and what it stands for. -/
def tagDirective (c : Cursor) : Except YamlFault (Directive × Cursor) := do
  let (handle, c) ← tagHandle c.skipBlanks
  if !c.sees ' ' then .error badToken
  else
    let (base, c) ← uri c.skipBlanks
    if endsItem c.peek then pure (.tag handle base, c) else .error badToken

/-- A directive with the line that it stands on. -/
def directive (c : Cursor) : Except YamlFault (Directive × Cursor) := do
  let (name, c) := c.next.takeWhile isNameCharacter
  if name.isEmpty || !endsItem c.peek then .error badToken
  else
    let (d, c) ←
      if name = Text.ofString "YAML" then versionDirective c
      else if name = Text.ofString "TAG" then tagDirective c
      else pure (.other, c.dropWhile fun ch => !isBreak ch)
    let c := c.skipBlanks.skipComment
    if endsLine c.peek then pure (d, c.skipBreak) else .error badToken

end CanonStore.Yaml
