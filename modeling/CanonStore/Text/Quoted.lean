import CanonStore.Text.Printable
import CanonStore.Numeral

/-!
# Quoted text

How a text or a sequence of octets is shown inside a message: between single quotes, or between
double quotes if it holds single ones only, with escapes for the quote, the backslash and all that is
not printable.
-/

namespace CanonStore.Text

/-- The quote to put around something that may hold quotes itself. -/
def quoteFor (hasSingle hasDouble : Bool) : CodePoint := if hasSingle && !hasDouble then '"' else '\''

def quoteOne (quote c : CodePoint) : Text :=
  if c = quote || c = '\\' then ['\\', c]
  else if c = '\n' then "\\n"
  else if c = '\r' then "\\r"
  else if c = '\t' then "\\t"
  else if c.isPrintable then [c]
  else if c.val < 0x100 then "\\x" ++ Numeral.hexPadded 2 c.val
  else if c.val < 0x10000 then "\\u" ++ Numeral.hexPadded 4 c.val
  else "\\U" ++ Numeral.hexPadded 8 c.val

def quoted (t : Text) : Text :=
  let quote := quoteFor (t.any fun c => c = '\'') (t.any fun c => c = '"')
  quote :: t.flatMap (quoteOne quote) ++ [quote]

/-- One octet between quotes: printable ASCII as itself. -/
def quoteByte (quote : CodePoint) (b : UInt8) : Text :=
  let c := CodePoint.ofByte b
  if c.isAscii then quoteOne quote c else "\\x" ++ Numeral.hexPadded 2 b.toNat

/-- Octets between quotes, marked with `b`, one octet written as given. -/
def quotedBytesWith (one : CodePoint → UInt8 → Text) (bytes : Bytes) : Text :=
  let quote := quoteFor (bytes.any fun b => b = 0x27) (bytes.any fun b => b = 0x22)
  "b" ++ [quote] ++ bytes.flatMap (one quote) ++ [quote]

def quotedBytes (bytes : Bytes) : Text := quotedBytesWith quoteByte bytes

/-- Octets that can be changed in place: a single quote is escaped whichever quote surrounds them. -/
def quotedBuffer (bytes : Bytes) : Text :=
  "bytearray(" ++
    quotedBytesWith (fun quote b => if b = 0x27 then "\\'" else quoteByte quote b) bytes ++ ")"

end CanonStore.Text
