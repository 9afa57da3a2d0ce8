import CanonStore.Hex

/-!
# Identifiers

An identifier is sixteen random octets with six bits overwritten, so that it says of itself that it
is random, written as groups of 8, 4, 4, 4 and 12 lower-case hexadecimal digits. `ofEntropy` makes
one, and `draw` one of what a source of random octets gives; `isWellFormed` recognises the shape.
-/

namespace CanonStore.Identifier

def size : Nat := 16

def markVariant (b : UInt8) : UInt8 := (b &&& 0x3F) ||| 0x80

def markVersion (b : UInt8) : UInt8 := (b &&& 0x0F) ||| 0x40

def mark (entropy : Bytes) : Bytes := (entropy.modify 8 markVariant).modify 6 markVersion

def format (bytes : Bytes) : Text :=
  let digits := Hex.encode bytes
  let group (start count : Nat) : Text := (digits.drop start).take count
  Text.joinWith "-" [group 0 8, group 8 4, group 12 4, group 16 4, group 20 12]

/-- The identifier made of sixteen random octets. -/
def ofEntropy (entropy : Bytes) : Text := format (mark entropy)

def groups : List Nat := [8, 4, 4, 4, 12]

def isDigit (c : CodePoint) : Bool := c.isHexDigit && !c.isUpper

/-- What may stand at each place of an identifier. -/
def pattern : List (CodePoint → Bool) :=
  let hyphen : CodePoint → Bool := fun c => c = '-'
  List.replicate 8 isDigit ++ hyphen :: List.replicate 4 isDigit ++
    hyphen :: (fun c => c = '4') :: List.replicate 3 isDigit ++
    hyphen :: (fun c => c = '8' || c = '9' || c = 'a' || c = 'b') :: List.replicate 3 isDigit ++
    hyphen :: List.replicate 12 isDigit

/-- A text fits a pattern: as many code points, each allowed at its place. A single line feed may
follow the last one. -/
def fits : List (CodePoint → Bool) → Text → Bool
  | [], [] => true
  | [], [c] => c = '\n'
  | p :: ps, c :: cs => p c && fits ps cs
  | _, _ => false

def isWellFormed (t : Text) : Bool := fits pattern t

/-- Why no identifier could be made. -/
inductive Fault (ε : Type) where
  /-- The source of random octets failed. -/
  | sourceFailed (cause : ε)
  /-- The source returned another number of octets than it was asked for. -/
  | wrongSize (actual : Nat)

/-- Makes an identifier of what the source returned when it was asked for `size` octets. -/
def generate {ε : Type} (answer : Except ε Bytes) : Except (Fault ε) Text :=
  match answer with
  | .error cause => .error (.sourceFailed cause)
  | .ok entropy =>
    if entropy.length = size then .ok (ofEntropy entropy) else .error (.wrongSize entropy.length)

/-- A source of random octets that has a state. Asked for a number of octets it answers or fails, and goes on to
another state. -/
abbrev Source (σ ε : Type) := Nat → σ → Except ε Bytes × σ

/-- Asks a source for octets and makes an identifier of what it returns. -/
def draw {σ ε : Type} (source : Source σ ε) (s : σ) : Except (Fault ε) Text × σ :=
  let (answer, s') := source size s
  (generate answer, s')

end CanonStore.Identifier
