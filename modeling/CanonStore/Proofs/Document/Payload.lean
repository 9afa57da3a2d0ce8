import CanonStore.Proofs.Canonical.Failure
import CanonStore.Proofs.Document.Container

/-!
# What is stored of a value

Before a value is written it is made into a dictionary or a list of plain values (`payload_eq_ok`), or
reported as one that cannot be stored (`isReport_of_payload`). Whatever kind of value it was, the octets
are therefore those of a document that can be read back and is no number (`exists_document_of_write`).
-/

namespace CanonStore

namespace Document

open Value (Plain)
open Json (Readable)

variable {type : Text} {v w : Value} {path : Option Text}

theorem isReport_encodeFault (type : Text) (path : Option Text) (reason : Text) (cause : Option Fault)
    (details : List (Value × Value)) : (encodeFault type path reason cause details).IsReport .encode :=
  ⟨_, _, rfl⟩

theorem isReport_of_requirePlain {document : Value} {fault : Fault}
    (h : requirePlain type document path = .error fault) : fault.IsReport .encode := by
  unfold requirePlain at h
  split at h
  · cases h
    exact isReport_encodeFault ..
  · cases h
  · cases h
    exact isReport_encodeFault ..

/-- Faults of dumping are faults of values, so they are reported. -/
theorem recordPayload_dumpFault (type : Text) (path : Option Text) (fault : DumpFault) :
    recordPayload type path (.error fault.toFault)
      = .error (encodeFault type path fault.message (some fault.toFault) []) := by
  have hvalue : fault.toFault.isOfValue = true := by cases fault <;> rfl
  rw [recordPayload, hvalue]
  rfl

theorem isReport_of_recordPayload {dumped : Except DumpFault Json} {fault : Fault}
    (h : recordPayload type path (dumped.mapError DumpFault.toFault) = .error fault) : fault.IsReport .encode := by
  cases dumped with
  | ok j => cases h
  | error cause =>
    rw [Except.mapError, recordPayload_dumpFault] at h
    cases h
    exact isReport_encodeFault ..

theorem isReport_of_entryPayload {made : Except Fault Value} {fault : Fault}
    (h : entryPayload type path made = .error fault) : fault.IsReport .encode := by
  cases made with
  | error cause =>
    cases h
    exact isReport_encodeFault ..
  | ok document =>
    rw [entryPayload] at h
    split at h
    · exact isReport_of_requirePlain h
    · cases h
      exact isReport_encodeFault ..

/-- A value that has no payload is reported. -/
theorem isReport_of_payload {fault : Fault} (h : payload v path = .error fault) :
    fault.IsReport .encode := by
  -- Dictionaries and lists go to the gate; an entry goes there once it is one that can be stored and has
  -- become a dictionary; nothing else does.
  cases v with
  | record type fields => exact isReport_of_recordPayload h
  | dict | list => exact isReport_of_requirePlain h
  | endless shape =>
    have hgate : requirePlain (Value.endless shape).typeName (.endless shape) path = .error fault := h
    exact isReport_of_requirePlain hgate
  | entry type fields =>
    rw [payload] at h
    split at h
    · cases h
      exact isReport_encodeFault ..
    · exact isReport_of_entryPayload h
  | foreign kind =>
    cases kind <;> cases h <;> exact isReport_encodeFault ..
  | _ =>
    cases h
    exact isReport_encodeFault ..

/-- The document of a record is a dictionary. -/
theorem isContainer_dump {type : RecordType} {fields : List (Text × Value)} {j : Json}
    (h : type.dump fields = .ok j) : IsContainer j.toValue := by
  obtain ⟨_, ms, _, rfl⟩ := Dump.value_record_eq_ok_iff.mp h
  exact .inl ⟨_, rfl⟩

/-- What an entry turns into is a dictionary of plain values. -/
theorem entryPayload_eq_ok {made : Except Fault Value} (h : entryPayload type path made = .ok w) :
    IsContainer w ∧ Plain w := by
  cases made with
  | error cause => cases h
  | ok document =>
    rw [entryPayload] at h
    split at h
    · next entries hentries =>
      obtain ⟨rfl, hplain⟩ := requirePlain_eq_ok h
      refine ⟨?_, hplain⟩
      -- A plain value that has entries is a dictionary.
      cases w with
      | dict => exact .inl ⟨_, rfl⟩
      | endless => exact hplain.elim
      | _ => cases hentries
    · cases h

/-- The payload of a value is a dictionary or a list of plain values. -/
theorem payload_eq_ok (h : payload v path = .ok w) : IsContainer w ∧ Plain w := by
  cases v with
  | record type fields =>
    obtain ⟨j, hj, rfl⟩ := recordPayload_eq_ok_iff.mp h
    exact ⟨isContainer_dump (mapError_eq_ok_iff.mp hj), Value.plain_toValue j⟩
  | dict entries =>
    obtain ⟨rfl, hplain⟩ := requirePlain_eq_ok h
    exact ⟨.inl ⟨entries, rfl⟩, hplain⟩
  | list items =>
    obtain ⟨rfl, hplain⟩ := requirePlain_eq_ok h
    exact ⟨.inr ⟨items, rfl⟩, hplain⟩
  | endless => cases h
  | entry type fields =>
    rw [payload] at h
    split at h
    · cases h
    · exact entryPayload_eq_ok h
  | foreign kind => cases kind <;> cases h
  | _ => cases h

/-- The octets of a container are those of a document that can be read back and is no number. -/
theorem exists_document_of_write (hc : IsContainer w) {bytes : Bytes} (h : write type path w = .ok bytes) :
    ∃ j : Json, j.SelfDelimiting ∧ Readable Canonical.maxDepth j ∧ Utf8.encode j.write = .ok bytes := by
  obtain ⟨t, htext, hbytes⟩ := write_eq_ok_iff.mp h
  obtain ⟨c, hcanon, hsize, rfl⟩ := Value.canonicalText_eq_ok_iff.mp htext
  exact ⟨c.toJson, selfDelimiting_toJson hc hcanon, Canonical.readable_ofValueAt hcanon hsize, hbytes⟩

end Document

end CanonStore
