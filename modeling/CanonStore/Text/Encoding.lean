import CanonStore.Text.Utf16

/-!
# The encoding of a document

A JSON document may come in UTF-8, UTF-16 or UTF-32, with or without a byte order mark. Its first
code point is below U+0080, so without a mark the places of the zero octets tell the encoding.
-/

namespace CanonStore

/-- The encoding of a document, and whether a byte order mark stands in front. -/
inductive Encoding where
  | utf8 (marked : Bool)
  | utf16 (order : ByteOrder) (marked : Bool)
  | utf32 (order : ByteOrder) (marked : Bool)
deriving DecidableEq

namespace Encoding

def ofMark? : Bytes → Option Encoding
  | 0x00 :: 0x00 :: 0xFE :: 0xFF :: _ => some (.utf32 .big true)
  | 0xFF :: 0xFE :: 0x00 :: 0x00 :: _ => some (.utf32 .little true)
  | 0xFE :: 0xFF :: _ => some (.utf16 .big true)
  | 0xFF :: 0xFE :: _ => some (.utf16 .little true)
  | 0xEF :: 0xBB :: 0xBF :: _ => some (.utf8 true)
  | _ => none

/-- The encoding told by the places of zero octets. -/
def ofZeros : Bytes → Encoding
  | a :: b :: c :: d :: _ =>
    if a = 0 then if b = 0 then .utf32 .big false else .utf16 .big false
    else if b = 0 then if c = 0 && d = 0 then .utf32 .little false else .utf16 .little false
    else .utf8 false
  | [a, b] =>
    if a = 0 then .utf16 .big false else if b = 0 then .utf16 .little false else .utf8 false
  | _ => .utf8 false

def detect (bytes : Bytes) : Encoding := (ofMark? bytes).getD (ofZeros bytes)

/-- Reads octets in an encoding. Lone surrogates pass. -/
def decode : Encoding → Bytes → Except DecodingFault Text
  | .utf8 false, bytes => Utf8.decode true bytes
  | .utf8 true, bytes => Utf8.decode true (bytes.drop 3)
  | .utf16 order false, bytes => Utf16.decode order 0 bytes
  | .utf16 order true, bytes => Utf16.decode order 2 (bytes.drop 2)
  | .utf32 order false, bytes => Utf32.decode order 0 bytes
  | .utf32 order true, bytes => Utf32.decode order 4 (bytes.drop 4)

end Encoding

/-- Reads the octets of a document in the encoding that they show. -/
def Text.ofDocument (bytes : Bytes) : Except DecodingFault Text := (Encoding.detect bytes).decode bytes

end CanonStore
