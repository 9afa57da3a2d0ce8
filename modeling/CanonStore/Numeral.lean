import CanonStore.Text

/-!
# Numerals

Decimal and hexadecimal numerals of natural numbers and integers, written and read. Writing uses the
fewest digits; `ofDigits` reads a run of decimal digits back.
-/

namespace CanonStore.Numeral

/-- The decimal digits of a number, most significant first. -/
def digits (n : Nat) : List Nat :=
  if n < 10 then [n] else digits (n / 10) ++ [n % 10]

/-- The number that a list of decimal digits denotes. -/
def ofDigitValues (ds : List Nat) : Nat := ds.foldl (fun n d => 10 * n + d) 0

def ofNat (n : Nat) : Text := (digits n).map fun d => CodePoint.ofNat (0x30 + d)

/-- The decimal numeral of an integer: a minus sign goes before a negative one. -/
def ofInt (n : Int) : Text := if n < 0 then (0x2D : CodePoint) :: ofNat n.natAbs else ofNat n.natAbs

/-- The number that a run of decimal digits denotes. -/
def toNat (t : Text) : Nat := t.foldl (fun n c => 10 * n + (c.val - 0x30)) 0

def length (n : Nat) : Nat := (digits n).length

/-- A decimal numeral of a natural number, filled up with zeros on the left. -/
def padded (width n : Nat) : Text := List.replicate (width - length n) 0x30 ++ ofNat n

/-- The hexadecimal digits of a number, most significant first. -/
def hexDigits (n : Nat) : List Nat :=
  if n < 16 then [n] else hexDigits (n / 16) ++ [n % 16]

/-- The hexadecimal numeral of a natural number in lower case. -/
def hex (n : Nat) : Text := (hexDigits n).map CodePoint.ofHexValue

/-- A hexadecimal numeral of a natural number, filled up with zeros on the left. -/
def hexPadded (width n : Nat) : Text := List.replicate (width - (hexDigits n).length) 0x30 ++ hex n

/-- The octal digits of a number, most significant first. -/
def octalDigits (n : Nat) : List Nat :=
  if n < 8 then [n] else octalDigits (n / 8) ++ [n % 8]

def octal (n : Nat) : Text := (octalDigits n).map fun d => CodePoint.ofNat (0x30 + d)

end CanonStore.Numeral
