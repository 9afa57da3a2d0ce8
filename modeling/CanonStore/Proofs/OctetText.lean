import CanonStore.Proofs.Base64.Spelling
import CanonStore.Proofs.Hex

/-!
# The two texts of octets

Octets are written in base64 and in hexadecimal, and read back from either text (`Bytes.read_written`). Both texts are
of fixed shape: their lengths depend on the number of octets only, and their code points are taken from an
alphabet that is written out here, apart from padding at the end and the mark at the beginning.
-/

namespace CanonStore

namespace Base64

/-- The digits of the standard alphabet, each at its value. -/
def standardDigits : Text := "ABCDEFGHIJKLMNOPQRSTUVWXYZabcdefghijklmnopqrstuvwxyz0123456789+/"

theorem getElem?_standardDigits : ∀ v < 64, standardDigits[v]? = some (standard.digit v) := by decide

/-- Octets are written with digits of the alphabet, and with padding only at the end. -/
theorem exists_standardDigits (d : Bytes) :
    ∃ digits, encode d = digits ++ List.replicate (padCount d) pad ∧ ∀ c ∈ digits, c ∈ standardDigits := by
  refine ⟨digitsOf (sextets 0 d), encode_eq d, ?_⟩
  intro c hc
  obtain ⟨v, hv, rfl⟩ := List.mem_map.mp hc
  have hlt : v < 64 := sextets_lt (Nat.pow_pos (by decide)) v hv
  exact List.mem_of_getElem? (getElem?_standardDigits v hlt)

theorem length_encode (d : Bytes) : (encode d).length = 4 * ((d.length + 2) / 3) := by
  rw [encode_eq, List.length_append, digitsOf, List.length_map, List.length_replicate, length_sextets]

end Base64

namespace Hex

/-- The digits that octets are written with, each at its value. -/
def lowerDigits : Text := "0123456789abcdef"

theorem getElem?_lowerDigits : ∀ n < 16, lowerDigits[n]? = some (CodePoint.ofHexValue n) := by decide

theorem mem_lowerDigits_of_mem_encode (d : Bytes) : ∀ c ∈ encode d, c ∈ lowerDigits :=
  forall_mem_encode (fun n hn => List.mem_of_getElem? (getElem?_lowerDigits n hn)) d

end Hex

/-- Octets are read back from both their texts: from base64 of four code points for every three octets or part
of them, with padding only at the end, and from the mark `0x` with two lower-case digits for each octet. -/
theorem Bytes.read_written (d : Bytes) :
    (Base64.decode (Base64.encode d) = .ok d ∧ (Base64.encode d).length = 4 * ((d.length + 2) / 3) ∧
        ∃ digits, Base64.encode d = digits ++ List.replicate (Base64.padCount d) Base64.pad ∧
          ∀ c ∈ digits, c ∈ Base64.standardDigits) ∧
      Hex.unprefixed (Hex.prefixed d) = .ok d ∧
        ∃ digits, Hex.prefixed d = Text.ofString "0x" ++ digits ∧ digits.length = 2 * d.length ∧
          ∀ c ∈ digits, c ∈ Hex.lowerDigits := by
  refine ⟨⟨Base64.decode_encode d, Base64.length_encode d, Base64.exists_standardDigits d⟩, ?_, ?_⟩
  · exact Hex.unprefixed_prefixed d
  · exact ⟨Hex.encode d, rfl, Hex.length_encode d, Hex.mem_lowerDigits_of_mem_encode d⟩

end CanonStore
