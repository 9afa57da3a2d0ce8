import CanonStore.Text.Utf8

/-!
# UTF-16 and UTF-32

Readers of octets in units of two and of four, in either byte order. Surrogates without a partner
pass as code points of their own.
-/

namespace CanonStore

/-- Which octet of a unit comes first. -/
inductive ByteOrder where
  | little
  | big
deriving DecidableEq

def ByteOrder.suffix : ByteOrder → Text
  | .little => "-le"
  | .big => "-be"

namespace Utf16

def unit (order : ByteOrder) (a b : UInt8) : Nat :=
  match order with
  | .little => b.toNat * 0x100 + a.toNat
  | .big => a.toNat * 0x100 + b.toNat

/-- Reads units; a last octet on its own is a fault at its position. -/
def units (order : ByteOrder) (position : Nat) : Bytes → Except DecodingFault Text
  | [] => .ok []
  | [a] => .error ⟨"utf-16" ++ order.suffix, position, [a], .truncated⟩
  | a :: b :: rest =>
    (units order (position + 2) rest).map (CodePoint.ofNat (unit order a b) :: ·)

/-- Joins each high surrogate with a low one that follows it. -/
def joinPairs : Text → Text
  | c :: d :: rest =>
    if c.isHighSurrogate && d.isLowSurrogate then CodePoint.ofSurrogates c d :: joinPairs rest
    else c :: joinPairs (d :: rest)
  | t => t

/-- Reads octets of which the first has the given position. -/
def decode (order : ByteOrder) (position : Nat) (bytes : Bytes) : Except DecodingFault Text :=
  (units order position bytes).map joinPairs

end Utf16

namespace Utf32

def unit (order : ByteOrder) (a b c d : UInt8) : Nat :=
  match order with
  | .little => ((d.toNat * 0x100 + c.toNat) * 0x100 + b.toNat) * 0x100 + a.toNat
  | .big => ((a.toNat * 0x100 + b.toNat) * 0x100 + c.toNat) * 0x100 + d.toNat

/-- Reads octets of which the first has the given position. -/
def decode (order : ByteOrder) (position : Nat) : Bytes → Except DecodingFault Text
  | [] => .ok []
  | a :: b :: c :: d :: rest =>
    let n := unit order a b c d
    if n < 0x110000 then (decode order (position + 4) rest).map (CodePoint.ofNat n :: ·)
    else .error ⟨"utf-32" ++ order.suffix, position, [a, b, c, d], .outOfRange⟩
  | rest => .error ⟨"utf-32" ++ order.suffix, position, rest, .truncated⟩

end Utf32

end CanonStore
