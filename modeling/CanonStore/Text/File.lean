import CanonStore.Text.Utf8

/-!
# The text of a file

A text file is read as UTF-8 piece by piece, and a line may end in a line feed, a carriage return or
both. In the text that is read every line ends in a line feed.
-/

namespace CanonStore.Text

def unifyLineEnds : Text → Text
  | [] => []
  | 0x0D :: 0x0A :: rest => 0x0A :: unifyLineEnds rest
  | c :: rest => (if c = 0x0D then 0x0A else c) :: unifyLineEnds rest

/-- A sequence cut off at the end of the file is found only when all before it has been read, and its
octets are counted from its own start. -/
def countAnew (fault : DecodingFault) : DecodingFault :=
  if fault.reason = .unexpectedEnd then { fault with start := 0 } else fault

def ofFile (octets : Bytes) : Except DecodingFault Text :=
  match Utf8.decode false octets with
  | .ok t => .ok (unifyLineEnds t)
  | .error fault => .error (countAnew fault)

end CanonStore.Text
