import CanonStore.Text

/-!
# Blanks

The code points with the Unicode property `White_Space`, and trimming them from both ends of a text.
-/

namespace CanonStore

/-- The code point has the property `White_Space`. -/
def CodePoint.isWhiteSpace (c : CodePoint) : Bool :=
  let n := c.val
  (0x09 ≤ n && n ≤ 0x0D) || n = 0x20 || n = 0x85 || n = 0xA0 || n = 0x1680 ||
    (0x2000 ≤ n && n ≤ 0x200A) || n = 0x2028 || n = 0x2029 || n = 0x202F || n = 0x205F || n = 0x3000

/-- Drops the code points with a property from both ends of a text. -/
def Text.trimBy (p : CodePoint → Bool) (t : Text) : Text :=
  ((t.dropWhile p).reverse.dropWhile p).reverse

def Text.trim (t : Text) : Text := t.trimBy CodePoint.isWhiteSpace

end CanonStore
