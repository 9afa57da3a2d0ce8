import CanonStore.Proofs.Value.Same

/-!
# Stored containers read back

A dictionary or a list that is stored can be loaded again, as the value that it was: what the gate lets
through is plain, a plain value keeps what it is in canonical form, and the octets read back to its
document. Main statement: `decode_encode_container`.
-/

namespace CanonStore.Document

open Value (Plain Same Wellformed)

/-- The value is a dictionary or a list. -/
def IsContainer (v : Value) : Prop := (∃ entries, v = .dict entries) ∨ ∃ items, v = .list items

theorem requirePlain_eq_ok_iff {type : Text} {document w : Value} {path : Option Text} :
    requirePlain type document path = .ok w ↔ document.firstForeign = .ok none ∧ w = document := by
  unfold requirePlain
  cases document.firstForeign with
  | error fault => simp
  | ok found =>
    cases found with
    | none => simp [eq_comm]
    | some place => simp

theorem requirePlain_eq_ok {type : Text} {document w : Value} {path : Option Text}
    (h : requirePlain type document path = .ok w) : w = document ∧ Plain document := by
  obtain ⟨hplain, rfl⟩ := requirePlain_eq_ok_iff.mp h
  exact ⟨rfl, Value.plain_of_firstForeignAt hplain⟩

/-- The payload of a record is the document that it is dumped as. -/
theorem recordPayload_eq_ok_iff {type : Text} {path : Option Text} {dumped : Except Fault Json}
    {w : Value} :
    recordPayload type path dumped = .ok w ↔ ∃ j, dumped = .ok j ∧ w = j.toValue := by
  cases dumped with
  | ok j => simp [recordPayload, eq_comm]
  | error cause => simp [recordPayload]

/-- The payload of a container is the container itself, and plain. -/
theorem payload_container {v w : Value} (hc : IsContainer v) {path : Option Text}
    (h : payload v path = .ok w) : w = v ∧ Plain v := by
  obtain ⟨entries, rfl⟩ | ⟨items, rfl⟩ := hc
  · exact requirePlain_eq_ok h
  · exact requirePlain_eq_ok h

theorem write_eq_ok_iff {type : Text} {path : Option Text} {w : Value} {bytes : Bytes} :
    write type path w = .ok bytes ↔ ∃ t, w.canonicalText = .ok t ∧ Utf8.encode t = .ok bytes := by
  unfold write
  cases w.canonicalText with
  | error fault => simp
  | ok t => simp [mapError_eq_ok_iff]

/-- The payload that a document denotes is written as that document, if it can be read back. -/
theorem write_toValue_eq_ok_iff {type : Text} {path : Option Text} {j : Json} {bytes : Bytes} :
    write type path j.toValue = .ok bytes ↔
      Json.Readable Canonical.maxDepth j ∧ Utf8.encode j.write = .ok bytes := by
  simp only [write_eq_ok_iff, Value.canonicalText_toValue_eq_ok_iff, and_assoc, exists_and_left, exists_eq_left]

/-- A record is written as the document that it is dumped as. -/
theorem write_recordPayload_eq_ok_iff {type : Text} {path : Option Text} {dumped : Except Fault Json}
    {bytes : Bytes} :
    (recordPayload type path dumped >>= write type path) = .ok bytes ↔
      ∃ j, dumped = .ok j ∧ Json.Readable Canonical.maxDepth j ∧ Utf8.encode j.write = .ok bytes := by
  rw [bind_eq_ok_iff]
  constructor
  · rintro ⟨w, hpayload, hwrite⟩
    obtain ⟨j, hj, rfl⟩ := recordPayload_eq_ok_iff.mp hpayload
    exact ⟨j, hj, write_toValue_eq_ok_iff.mp hwrite⟩
  · rintro ⟨j, hj, hwrite⟩
    exact ⟨j.toValue, recordPayload_eq_ok_iff.mpr ⟨j, hj, rfl⟩, write_toValue_eq_ok_iff.mpr hwrite⟩

/-- Octets are those of the canonical text of the payload. -/
theorem encode_eq_ok_iff {v : Value} {path : Option Text} {bytes : Bytes} :
    encode v path = .ok bytes ↔
      ∃ w t, payload v path = .ok w ∧ w.canonicalText = .ok t ∧ Utf8.encode t = .ok bytes := by
  rw [encode, bind_eq_ok_iff]
  simp only [write_eq_ok_iff, exists_and_left]

/-- The document of a container is no number. -/
theorem selfDelimiting_toJson {v : Value} (hc : IsContainer v) {place : Location} {c : Canonical}
    (h : Canonical.ofValue place v = .ok c) : c.toJson.SelfDelimiting := by
  obtain ⟨entries, rfl⟩ | ⟨items, rfl⟩ := hc
  · obtain ⟨ms, _, rfl⟩ := map_eq_ok_iff.mp h
    trivial
  · obtain ⟨cs, _, rfl⟩ := map_eq_ok_iff.mp h
    trivial

/-- A document of its own kind is taken as it is. -/
theorem decodeAs_container {v w : Value} (hc : IsContainer v) (h : Same v w) (name : Text)
    (path : Option Text) : decodeAs (Target.ofValue v) name path w = .ok w := by
  obtain ⟨entries, rfl⟩ | ⟨items, rfl⟩ := hc
  · cases w with
    | dict others => rfl
    | _ => cases h
  · cases w with
    | list others => rfl
    | _ => cases h

theorem readDocument_of_read {bytes : Bytes} {j : Json} (hj : Json.readBytes bytes = .ok j) (name : Text)
    (path : Option Text) : readDocument name path bytes = .ok j.toValue := by
  rw [readDocument, hj]
  rfl

theorem decode_container {v : Value} (hc : IsContainer v) {bytes : Bytes} {j : Json}
    (hj : Json.readBytes bytes = .ok j) (h : Same v j.toValue) (path : Option Text) :
    decode bytes (Target.ofValue v) path = .ok j.toValue := by
  have htaken : ∀ name, decodeAs (Target.ofValue v) name path j.toValue = .ok j.toValue :=
    fun name => decodeAs_container hc h name path
  obtain ⟨entries, rfl⟩ | ⟨items, rfl⟩ := hc
  · simp only [decode, Target.ofValue, Target.name, readDocument_of_read hj]
    exact htaken _
  · simp only [decode, Target.ofValue, Target.name, readDocument_of_read hj]
    exact htaken _

/-- The octets of a container are read as a document of the same value. -/
theorem readBytes_of_encode {v : Value} (hc : IsContainer v) (hv : v.Wellformed) {path : Option Text}
    {bytes : Bytes} (h : encode v path = .ok bytes) :
    ∃ j, Json.readBytes bytes = .ok j ∧ Same v j.toValue := by
  obtain ⟨w, t, hpayload, htext, hbytes⟩ := encode_eq_ok_iff.mp h
  -- The payload is the container; what its octets read back to is the sorted document of its tree.
  obtain ⟨rfl, hplain⟩ := payload_container hc hpayload
  obtain ⟨c, hcanon, hread, hkeys, rfl⟩ := Value.exists_document hv htext
  have hj := Json.readBytes_write (selfDelimiting_toJson hc hcanon) hread.loads hkeys hbytes
  exact ⟨_, hj, Value.same_toValue hplain hcanon (Json.same_sorted c.toJson)⟩

/-- A stored dictionary or list is loaded as the value that it was. -/
theorem decode_encode_container {v : Value} (hc : IsContainer v) (hv : v.Wellformed)
    {path : Option Text} {bytes : Bytes} (h : encode v path = .ok bytes) (path' : Option Text) :
    ∃ w, decode bytes (Target.ofValue v) path' = .ok w ∧ Same v w := by
  obtain ⟨j, hj, hsame⟩ := readBytes_of_encode hc hv h
  exact ⟨_, decode_container hc hj hsame path', hsame⟩

/-- A list in a dictionary under a key that needs an escape, beside a text beyond ASCII. -/
theorem decode_encode_container_entries :
    ∃ w, decode (Text.toBytes "\x7b\"a\":\"\u00c3\u00a9\",\"b\\n\":[null,true,[]]\x7d") .dict none = .ok w ∧
      Same (.dict [(.text "b\n", .list [.null, .bool true, .list []]),
        (.textMember ⟨"Key", "A"⟩ "a", .text "\u00e9")]) w :=
  decode_encode_container (.inl ⟨_, rfl⟩) (by decide)
    (show encode _ (some "store.json") = .ok _ from rfl) none

end CanonStore.Document
