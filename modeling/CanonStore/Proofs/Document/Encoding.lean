import CanonStore.Proofs.Document.Refusal
import CanonStore.Proofs.Text.Octets

/-!
# Octets that are no UTF-8

Which octets outside of UTF-8 are loaded all the same. Records are read strictly, so none are. Every other
target reads what looks like UTF-16 or UTF-32 as such, and takes the octets of surrogates as UTF-8 would
write them (`ofDocument_of_not_isUtf8`); all other octets that are no UTF-8 are reported. Main statement:
`decode_not_isUtf8`.
-/

namespace CanonStore

namespace Encoding

/-- An encoding in units of more than one octet. -/
def IsWide : Encoding → Prop
  | .utf8 _ => False
  | .utf16 _ _ | .utf32 _ _ => True

theorem ofZeros_ne_marked (bytes : Bytes) : ofZeros bytes ≠ .utf8 true := by
  unfold ofZeros
  repeat' split
  all_goals simp

/-- A byte order mark of UTF-8 stands in front where it is told from the octets. -/
theorem exists_of_detect_marked {bytes : Bytes} (h : detect bytes = .utf8 true) :
    ∃ rest, bytes = 0xEF :: 0xBB :: 0xBF :: rest := by
  rw [detect] at h
  cases hmark : ofMark? bytes with
  | none =>
    rw [hmark, Option.getD_none] at h
    exact absurd h (ofZeros_ne_marked bytes)
  | some encoding =>
    rw [hmark, Option.getD_some] at h
    rw [h] at hmark
    unfold ofMark? at hmark
    split at hmark <;> cases hmark
    exact ⟨_, rfl⟩

end Encoding

/-- The octets behind a byte order mark are UTF-8 only if all of them are. -/
theorem Utf8.isUtf8_marked {rest : Bytes} (h : IsUtf8 rest) : IsUtf8 (0xEF :: 0xBB :: 0xBF :: rest) := by
  obtain ⟨t, ht⟩ := h
  obtain ⟨hclean, rfl⟩ := (encode_eq_ok_iff t rest).mp ht
  exact ⟨0xFEFF :: t, (encode_eq_ok_iff _ _).mpr ⟨List.forall_mem_cons.mpr ⟨rfl, hclean⟩, rfl⟩⟩

/-- Octets that are no UTF-8 have a text only in another encoding, or with surrogates in it. -/
theorem ofDocument_of_not_isUtf8 {bytes : Bytes} (hne : ¬ Utf8.IsUtf8 bytes) {t : Text}
    (h : Text.ofDocument bytes = .ok t) : (Encoding.detect bytes).IsWide ∨ ∃ c ∈ t, c.isSurrogate := by
  rw [Text.ofDocument] at h
  cases hdetect : Encoding.detect bytes with
  | utf8 marked =>
    rw [hdetect] at h
    cases marked with
    | false => exact .inr (Utf8.exists_surrogate_of_decode hne h)
    | true =>
      obtain ⟨rest, rfl⟩ := Encoding.exists_of_detect_marked hdetect
      exact .inr (Utf8.exists_surrogate_of_decode (fun hrest => hne (Utf8.isUtf8_marked hrest)) h)
  | utf16 | utf32 => exact .inl trivial

/-- No record is read from octets that are no UTF-8. -/
theorem Json.readStrict_of_not_isUtf8 {bytes : Bytes} (hne : ¬ Utf8.IsUtf8 bytes) :
    readStrict? bytes = none := by
  rw [readStrict?]
  split
  · rfl
  · next s hs => exact absurd ⟨s, Utf8.decode_eq_ok_iff.mp hs⟩ hne

namespace Document

variable {bytes : Bytes} {target : Target} {name : Text} {path : Option Text}

theorem decode_record_of_not_isUtf8 (hne : ¬ Utf8.IsUtf8 bytes) (type : RecordType) (path : Option Text) :
    ∃ fault, decode bytes (.record type) path = .error fault ∧ fault.IsReport .decode :=
  decode_record_of_unread (Json.readStrict_of_not_isUtf8 hne) type path

/-- Octets that are no UTF-8 escape a report exactly if they are not read as a record, they are those of a
text in another encoding or of one with surrogates, and that text is a document which the target takes or
one nested too deeply. -/
theorem decode_not_isUtf8 (hne : ¬ Utf8.IsUtf8 bytes) (hname : target.name = .ok name)
    (path : Option Text) :
    (¬ ∃ fault, decode bytes target path = .error fault ∧ fault.IsReport .decode) ↔
      (∀ type, target ≠ .record type) ∧
        ∃ t, Text.ofDocument bytes = .ok t ∧
          ((Encoding.detect bytes).IsWide ∨ ∃ c ∈ t, c.isSurrogate) ∧
          ((∃ j v, Json.readUnmarked t = .ok j ∧ decodeAs target name path j.toValue = .ok v) ∨
            Json.readUnmarked t = .error .tooDeep) := by
  constructor
  · intro hescapes
    have hrecord : ∀ type, target ≠ .record type := by
      rintro type rfl
      exact hescapes (decode_record_of_not_isUtf8 hne type path)
    -- Octets in another encoding have a text as well, so what escapes is told of that text.
    refine ⟨hrecord, ?_⟩
    rcases decode_cases hname hrecord bytes path with ⟨j, v, hread, htaken, _⟩ | ⟨hread, _⟩ | hreport
    · obtain ⟨t, ht, hdocument⟩ := Json.readBytes_eq_ok_iff.mp hread
      exact ⟨t, ht, ofDocument_of_not_isUtf8 hne ht, .inl ⟨j, v, hdocument, htaken⟩⟩
    · obtain ⟨t, ht, hdocument⟩ := Json.readBytes_eq_document_iff.mp hread
      exact ⟨t, ht, ofDocument_of_not_isUtf8 hne ht, .inr hdocument⟩
    · exact absurd hreport hescapes
  · -- The one reading succeeds, the other one is too deep, and neither is a report.
    rintro ⟨hrecord, t, ht, _, ⟨j, v, hdocument, htaken⟩ | hdocument⟩ ⟨fault, hdecode, hreport⟩
    · have hread := Json.readBytes_eq_ok_iff.mpr ⟨t, ht, hdocument⟩
      rw [decode_of_read hname hrecord hread, htaken] at hdecode
      cases hdecode
    · have hread := Json.readBytes_eq_document_iff.mpr ⟨t, ht, hdocument⟩
      rw [decode_of_tooDeep hname hrecord hread] at hdecode
      cases hdecode
      exact not_isReport_tooDeep .decode hreport

theorem not_isUtf8_of_decode {fault : DecodingFault} (h : Utf8.decode false bytes = .error fault) :
    ¬ Utf8.IsUtf8 bytes := by
  rintro ⟨t, ht⟩
  rw [Utf8.decode_of_encode ht false] at h
  cases h

/-- An octet that goes on after nothing: no text, so a dictionary is not loaded. -/
theorem decode_not_isUtf8_octets :
    ¬ Utf8.IsUtf8 [0x7B, 0x80, 0x7D] ∧
      ∃ fault, decode [0x7B, 0x80, 0x7D] .dict (some "store.json") = .error fault ∧
        fault.IsReport .decode := by
  have hne : ¬ Utf8.IsUtf8 [0x7B, 0x80, 0x7D] := not_isUtf8_of_decode rfl
  have hname : Target.dict.name = .ok "dict" := rfl
  refine ⟨hne, ?_⟩
  by_contra hescapes
  obtain ⟨_, t, ht, _⟩ := (decode_not_isUtf8 hne hname (some "store.json")).mp hescapes
  cases ht

/-- An empty object in UTF-16 is loaded as a dictionary, and so are the octets of a key that is a
surrogate. -/
theorem decode_wide_not_reported :
    (¬ Utf8.IsUtf8 [0xFF, 0xFE, 0x7B, 0x00, 0x7D, 0x00] ∧
      decode [0xFF, 0xFE, 0x7B, 0x00, 0x7D, 0x00] .dict none = .ok (.dict [])) ∧
    (¬ Utf8.IsUtf8 [0x7B, 0x22, 0xED, 0xA0, 0x80, 0x22, 0x3A, 0x5B, 0x5D, 0x7D] ∧
      decode [0x7B, 0x22, 0xED, 0xA0, 0x80, 0x22, 0x3A, 0x5B, 0x5D, 0x7D] .dict none
        = .ok (.dict [(.text [0xD800], .list [])])) := by
  have hname : Target.dict.name = .ok "dict" := rfl
  have hne : ∀ type, Target.dict ≠ .record type := by simp
  refine ⟨⟨not_isUtf8_of_decode rfl, ?_⟩, not_isUtf8_of_decode rfl, ?_⟩
  · have hread : Json.readUnmarked (Json.write (.object [])) = .ok (.object []) :=
      Json.readUnmarked_write ⟨by decide, trivial⟩ ⟨List.nodup_nil, trivial⟩
    exact decode_of_read hname hne (Json.readBytes_eq_ok_iff.mpr ⟨_, rfl, hread⟩)
  · have hread : Json.readUnmarked (Json.write (.object [([0xD800], .list [])]))
        = .ok (.object [([0xD800], .list [])]) :=
      Json.readUnmarked_write ⟨by decide, ⟨by decide, trivial⟩, trivial⟩ ⟨List.nodup_singleton _, trivial, trivial⟩
    exact decode_of_read hname hne (Json.readBytes_eq_ok_iff.mpr ⟨_, rfl, hread⟩)

end Document

end CanonStore
