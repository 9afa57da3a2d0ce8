import CanonStore.Numeral

/-!
# Base64

The standard alphabet and the URL-safe one, written with padding. `decode` is strict: a character
outside the alphabet, padding in the wrong place or text after the padding is refused. `decodeAny?`
takes both alphabets and does without padding, but wants the bits after the last octet to be zero.
-/

namespace CanonStore.Base64

/-- The two code points of an alphabet beyond letters and digits. -/
structure Alphabet where
  /-- The digit for 62. -/
  plus : CodePoint
  /-- The digit for 63. -/
  slash : CodePoint

def standard : Alphabet := ⟨0x2B, 0x2F⟩

def urlSafe : Alphabet := ⟨0x2D, 0x5F⟩

def pad : CodePoint := 0x3D

namespace Alphabet

def digit (a : Alphabet) (n : Nat) : CodePoint :=
  if n < 26 then CodePoint.ofNat (0x41 + n)
  else if n < 52 then CodePoint.ofNat (0x61 + (n - 26))
  else if n < 62 then CodePoint.ofNat (0x30 + (n - 52))
  else if n = 62 then a.plus
  else a.slash

def value? (a : Alphabet) (c : CodePoint) : Option Nat :=
  if c.isUpper then some (c.val - 0x41)
  else if c.isLower then some (c.val - 0x61 + 26)
  else if c.isDigit then some (c.val - 0x30 + 52)
  else if c = a.plus then some 62
  else if c = a.slash then some 63
  else none

end Alphabet

/-- Four digits for every three octets; one or two octets at the end are padded. -/
def encodeWith (a : Alphabet) : Bytes → Text
  | [] => []
  -- The bits of the last digit that no octet fills are zero.
  | [x] => [a.digit (x.toNat / 4), a.digit (x.toNat % 4 * 16), pad, pad]
  | [x, y] =>
    [a.digit (x.toNat / 4), a.digit (x.toNat % 4 * 16 + y.toNat / 16), a.digit (y.toNat % 16 * 4), pad]
  | x :: y :: z :: rest =>
    a.digit (x.toNat / 4) :: a.digit (x.toNat % 4 * 16 + y.toNat / 16) ::
      a.digit (y.toNat % 16 * 4 + z.toNat / 64) :: a.digit (z.toNat % 64) :: encodeWith a rest

def encode (bytes : Bytes) : Text := encodeWith standard bytes

/-- What is wrong with a text that should be padded base64. -/
inductive Fault where
  | notAscii
  | leadingPadding
  | foreignCharacter
  | discontinuousPadding
  | excessData
  /-- A last group of one digit; the count is that of all digits. -/
  | loneDigit (count : Nat)
  | incorrectPadding
deriving DecidableEq

def Fault.message : Fault → Text
  | .notAscii => "string argument should contain only ASCII characters"
  | .leadingPadding => "Invalid base64 string: Leading padding not allowed"
  | .foreignCharacter => "Invalid base64 string: Only base64 data is allowed"
  | .discontinuousPadding => "Invalid base64 string: Discontinuous padding not allowed"
  | .excessData => "Invalid base64 string: Excess data after padding"
  | .loneDigit n =>
    "Invalid base64 string: Invalid base64-encoded string: number of data characters (" ++ Numeral.ofNat n ++
      ") cannot be 1 more than a multiple of 4"
  | .incorrectPadding => "Invalid base64 string: Incorrect padding"

/-- How far a reader has come. -/
structure Progress where
  /-- Octets that are complete, last first. -/
  done : Bytes
  /-- Digits read in the current group of four, below four. -/
  phase : Nat
  /-- Bits left over from the digits of the current group. -/
  carry : Nat
  /-- Padding signs met since the last digit. -/
  pads : Nat

def Progress.start : Progress := ⟨[], 0, 0, 0⟩

/-- Takes one digit: every digit after the first of its group completes an octet. -/
def Progress.digit (p : Progress) (v : Nat) : Progress :=
  match p.phase with
  -- A digit that starts a group completes nothing: its six bits are carried on.
  | 0 => ⟨p.done, 1, v, 0⟩
  | 1 => ⟨UInt8.ofNat (p.carry * 4 + v / 16) :: p.done, 2, v % 16, 0⟩
  | 2 => ⟨UInt8.ofNat (p.carry * 16 + v / 4) :: p.done, 3, v % 4, 0⟩
  | _ => ⟨UInt8.ofNat (p.carry * 64 + v) :: p.done, 0, 0, 0⟩

/-- Reads digits and padding. A padding sign ends the text once it completes a group that holds at
least two digits; elsewhere it is counted, and may not be followed by a digit. -/
def read (p : Progress) : Text → Except Fault Bytes
  | [] =>
    -- Text may end between groups only. One digit can never be padded to a group, two or three could have
    -- been.
    if p.phase = 0 then .ok p.done.reverse
    else if p.phase = 1 then .error (.loneDigit (p.done.length / 3 * 4 + 1))
    else .error .incorrectPadding
  | c :: rest =>
    if c = pad then
      let pads := p.pads + 1
      -- The padding completes its group, so nothing may follow. Before that it is only counted.
      if 2 ≤ p.phase && 4 ≤ p.phase + pads then
        if rest.isEmpty then .ok p.done.reverse else .error .excessData
      else read { p with pads } rest
    else
      match standard.value? c with
      | none => .error .foreignCharacter
      -- Padding that stood in front of this digit lies inside the text.
      | some v => if 0 < p.pads then .error .discontinuousPadding else read (p.digit v) rest

/-- Reads padded text in the standard alphabet. -/
def decode (t : Text) : Except Fault Bytes :=
  -- Both checks are made on the whole text, so they come before any fault inside it.
  if t.any fun c => !c.isAscii then .error .notAscii
  else if t.head? = some pad then .error .leadingPadding
  else read .start t

/-! ## Padding at the writer's choice -/

/-- Reads digits without padding; the bits after the last octet have to be zero. -/
def digits? (a : Alphabet) : Text → Option Bytes
  | [] => some []
  -- Six bits make no octet.
  | [_] => none
  | [c, d] => do
    let v ← a.value? c
    let w ← a.value? d
    if w % 16 = 0 then some [UInt8.ofNat (v * 4 + w / 16)] else none
  | [c, d, e] => do
    let v ← a.value? c
    let w ← a.value? d
    let x ← a.value? e
    if x % 4 = 0 then some [UInt8.ofNat (v * 4 + w / 16), UInt8.ofNat (w % 16 * 16 + x / 4)] else none
  | c :: d :: e :: f :: rest => do
    let v ← a.value? c
    let w ← a.value? d
    let x ← a.value? e
    let y ← a.value? f
    let bytes ← digits? a rest
    some (UInt8.ofNat (v * 4 + w / 16) :: UInt8.ofNat (w % 16 * 16 + x / 4) ::
      UInt8.ofNat (x % 4 * 64 + y) :: bytes)

/-- Splits off the padding signs at the end and counts them. -/
def splitPadding (t : Text) : Text × Nat :=
  -- Only the padding at the very end; a padding sign further in is left for the digits to refuse.
  let digits := (t.reverse.dropWhile fun c => c = pad).reverse
  (digits, t.length - digits.length)

/-- Reads text in an alphabet with full, partial or no padding. -/
def decodeLoose? (a : Alphabet) (t : Text) : Option Bytes :=
  let (digits, pads) := splitPadding t
  let last := digits.length % 4
  -- No padding at all, or no more of it than the last group has room for.
  if pads = 0 || (2 ≤ last && last + pads ≤ 4) then digits? a digits else none

/-- Reads text in either alphabet with full, partial or no padding. -/
def decodeAny? (t : Text) : Option Bytes := decodeLoose? urlSafe t <|> decodeLoose? standard t

end CanonStore.Base64
