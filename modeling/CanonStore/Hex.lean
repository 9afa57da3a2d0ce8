import CanonStore.Numeral

/-!
# Hexadecimal text of octets

`encode` writes two lower-case digits for each octet. `decode` reads pairs of digits of either case
and skips blanks between pairs; `prefixed` and `unprefixed` add and demand the mark `0x`.
-/

namespace CanonStore.Hex

def pair (b : UInt8) : Text :=
  [CodePoint.ofHexValue (b.toNat / 16), CodePoint.ofHexValue (b.toNat % 16)]

def encode (bytes : Bytes) : Text := bytes.flatMap pair

/-- Blanks that may stand before a pair of digits. -/
def isBlank (c : CodePoint) : Bool := c.val = 0x20 || (0x09 ≤ c.val && c.val ≤ 0x0D)

/-- Reads pairs of digits from a text whose first code point has the given position. A failure gives
the position of the first code point that is no digit where one is due. -/
def pairs (position : Nat) : Text → Except Nat Bytes
  | [] => .ok []
  | c :: rest =>
    -- Blanks are skipped where a pair may start, and nowhere else.
    if isBlank c then pairs (position + 1) rest
    else match c.hexValue? with
      | none => .error position
      | some high =>
        match rest with
        -- The second digit of the pair is due just after the text.
        | [] => .error (position + 1)
        | d :: rest' =>
          match d.hexValue? with
          | none => .error (position + 1)
          | some low => do
            let bytes ← pairs (position + 2) rest'
            pure (UInt8.ofNat (16 * high + low) :: bytes)

/-- The octets of a text of digit pairs, or the position of the first code point that does not fit.
A text beyond ASCII fails at its first such code point, whatever stands before it. -/
def decode (t : Text) : Except Nat Bytes :=
  match t.findIdx? fun c => !c.isAscii with
  | some position => .error position
  | none => pairs 0 t

/-- What is wrong with a text that should be `0x` and digit pairs. -/
inductive Fault where
  /-- The text does not start with `0x`. -/
  | unmarked (text : Text)
  /-- An odd number of code points follows the mark. -/
  | oddLength (length : Nat)
  /-- No digit at a position after the mark. -/
  | badDigit (position : Nat)
deriving DecidableEq

/-- The wording for a code point that is no digit. -/
def badDigitText (position : Nat) : Text :=
  "non-hexadecimal number found in fromhex() arg at position " ++ Numeral.ofNat position

def Fault.message : Fault → Text
  | .unmarked t => "Hex string must start with '0x' prefix, got: " ++ t.take 10 ++ "..."
  | .oddLength n => "Hex string must have even length after 0x prefix, got length " ++ Numeral.ofNat n
  | .badDigit p => "Invalid hex characters in string: " ++ badDigitText p

/-- The mark `0x` and two lower-case digits for each octet. -/
def prefixed (bytes : Bytes) : Text := "0x" ++ encode bytes

/-- Reads a text that `prefixed` writes; digits of either case and blanks between pairs pass too. -/
def unprefixed (t : Text) : Except Fault Bytes :=
  match Text.dropPrefix? "0x" t with
  | none => .error (.unmarked t)
  | some digits =>
    -- Blanks count here: what follows the mark is measured before it is read.
    if digits.length % 2 ≠ 0 then .error (.oddLength digits.length)
    else (decode digits).mapError .badDigit

end CanonStore.Hex
