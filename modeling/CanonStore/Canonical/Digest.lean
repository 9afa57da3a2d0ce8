import CanonStore.Canonical.OfValue
import CanonStore.Digest

/-!
# Digests of values

The digest of a value is that of its canonical text, so values with one canonical form have one
digest.
-/

namespace CanonStore.Value

/-- The digest of the canonical text of a value. -/
def canonicalDigest (v : Value) : Except Fault Bytes := do
  let t ← v.canonicalText.mapError CanonicalFault.toFault
  let bytes ← (Utf8.encode t).mapError fun fault => Fault.plain .textEncoding fault.message
  pure (Digest.ofBytes bytes)

end CanonStore.Value
