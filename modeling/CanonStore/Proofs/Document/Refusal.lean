import CanonStore.Proofs.Document.Payload
import CanonStore.Proofs.Json.Bounds

/-!
# Octets that are not loaded

Which faults reading a stored document can end in, for any octets and any target. Octets are read in three
stages, and each one ends in a report of its own: the reader does for octets that are no document, a
record or an entry does for what it does not accept, and the other targets do for documents of another
kind (`decode_cases`). Two faults are no reports. The target is named in every report, and it may have no
name; and a document nested too deeply ends reading as it is, unless a record is read. The latter needs
more than `Json.maxDepth` opening brackets. Main statement: `decode_reports_iff`.
-/

namespace CanonStore.Document

variable {bytes : Bytes} {target : Target} {name : Text} {path : Option Text}

theorem isReport_decodeFault (name : Text) (path : Option Text) (reason : Text) (cause : Option Fault) :
    (decodeFault name path reason cause).IsReport .decode :=
  ⟨_, _, rfl⟩

/-- A fault of a value that ends reading a record is reported. -/
theorem isReport_recordFault {cause : Fault} (h : cause.isOfValue = true) (name : Text) (path : Option Text) :
    (recordFault name path cause).IsReport .decode := by
  rw [recordFault, if_pos h]
  exact isReport_decodeFault ..

/-! ## One stage after the other -/

/-- Octets that are no document are read as no record. -/
theorem readRecord_of_unread (h : Json.readStrict? bytes = none) {α : Type} (accept : Json → Except Fault α) :
    readRecord bytes accept = .error (.invalid [⟨.jsonInvalid, []⟩]) := by
  rw [readRecord, h]

theorem isOfValue_of_readRecord {α : Type} {accept : Json → Accepted α} {cause : Fault}
    (h : readRecord bytes (fun j => (accept j).mapError .invalid) = .error cause) : cause.isOfValue := by
  unfold readRecord at h
  split at h
  · cases h
    rfl
  · obtain ⟨problems, _, rfl⟩ := mapError_eq_error_iff.mp h
    rfl

/-- A record takes octets, or it is reported that it does not. -/
theorem decode_record_cases (type : RecordType) (bytes : Bytes) (path : Option Text) :
    (∃ v, decode bytes (.record type) path = .ok v) ∨
      ∃ fault, decode bytes (.record type) path = .error fault ∧ fault.IsReport .decode := by
  show (∃ v, (readRecord bytes _).mapError _ = _) ∨ ∃ fault, (readRecord bytes _).mapError _ = _ ∧ _
  cases hread : readRecord bytes fun j => (type.ofJson j).mapError .invalid with
  | ok v => exact .inl ⟨v, rfl⟩
  | error cause => exact .inr ⟨_, rfl, isReport_recordFault (isOfValue_of_readRecord hread) type.name path⟩

theorem decode_record_of_unread (h : Json.readStrict? bytes = none) (type : RecordType) (path : Option Text) :
    ∃ fault, decode bytes (.record type) path = .error fault ∧ fault.IsReport .decode := by
  show ∃ fault, (readRecord bytes _).mapError _ = .error fault ∧ _
  rw [readRecord_of_unread h]
  exact ⟨_, rfl, isReport_decodeFault ..⟩

theorem malformed_eq_tooDeep_iff (fault : Json.BytesFault) :
    malformed fault = .tooDeep ↔ fault = .document .tooDeep := by
  unfold malformed
  split <;> simp_all

theorem readDocument_of_tooDeep (h : Json.readBytes bytes = .error (.document .tooDeep)) (name : Text)
    (path : Option Text) : readDocument name path bytes = .error .tooDeep := by
  rw [readDocument, h]
  rfl

/-- Octets that are no document are reported, for any other reason than their depth. -/
theorem readDocument_of_malformed {fault : Json.BytesFault} (h : Json.readBytes bytes = .error fault)
    (hfault : fault ≠ .document .tooDeep) (name : Text) (path : Option Text) :
    ∃ f, readDocument name path bytes = .error f ∧ f.IsReport .decode := by
  have hcause : malformed fault ≠ .tooDeep := fun heq => hfault ((malformed_eq_tooDeep_iff fault).mp heq)
  rw [readDocument, h]
  simp only [Except.mapError]
  exact ⟨_, rfl, isReport_decodeFault ..⟩

/-- What every other target does with octets. -/
theorem decode_of_name (hname : target.name = .ok name) (hne : ∀ type, target ≠ .record type) :
    decode bytes target path = (readDocument name path bytes).bind (decodeAs target name path) := by
  rw [decode, hname]
  cases target with
  | record type => exact absurd rfl (hne type)
  | _ => rfl

theorem decode_of_tooDeep (hname : target.name = .ok name) (hne : ∀ type, target ≠ .record type)
    (h : Json.readBytes bytes = .error (.document .tooDeep)) :
    decode bytes target path = .error .tooDeep := by
  rw [decode_of_name hname hne, readDocument_of_tooDeep h]
  rfl

theorem decode_of_malformed (hname : target.name = .ok name) (hne : ∀ type, target ≠ .record type)
    {fault : Json.BytesFault} (h : Json.readBytes bytes = .error fault)
    (hfault : fault ≠ .document .tooDeep) :
    ∃ f, decode bytes target path = .error f ∧ f.IsReport .decode := by
  obtain ⟨f, hf, hreport⟩ := readDocument_of_malformed h hfault name path
  rw [decode_of_name hname hne, hf]
  exact ⟨f, rfl, hreport⟩

theorem decode_of_read (hname : target.name = .ok name) (hne : ∀ type, target ≠ .record type) {j : Json}
    (h : Json.readBytes bytes = .ok j) :
    decode bytes target path = decodeAs target name path j.toValue := by
  rw [decode_of_name hname hne, readDocument_of_read h]
  rfl

/-- A document that an entry does not take is reported. -/
theorem isReport_of_readEntry {α : Type} {ofDict : List (Value × Value) → Except Fault α} {document : Value}
    {fault : Fault} (h : readEntry name path ofDict document = .error fault) : fault.IsReport .decode := by
  unfold readEntry at h
  split at h
  · obtain ⟨cause, _, rfl⟩ := mapError_eq_error_iff.mp h
    exact isReport_decodeFault ..
  · cases h
    exact isReport_decodeFault ..

/-- A document that a target does not take is reported. -/
theorem isReport_of_decodeAs {document : Value} {fault : Fault}
    (h : decodeAs target name path document = .error fault) : fault.IsReport .decode := by
  -- One case for each target and kind of document: all but the matching ones are faults of this stage.
  unfold decodeAs at h
  dsimp only at h
  split at h
  · cases h
  · cases h
  · cases h
    exact isReport_decodeFault ..
  · cases h
    exact isReport_decodeFault ..
  · split at h
    · cases h
      exact isReport_decodeFault ..
    · exact isReport_of_readEntry h
  · cases h
    exact isReport_decodeFault ..

/-! ## All stages -/

/-- Reading as anything but a record takes the document that is read, is reported, or ends at the bound on
nesting. -/
theorem decode_cases (hname : target.name = .ok name) (hne : ∀ type, target ≠ .record type) (bytes : Bytes)
    (path : Option Text) :
    (∃ j v, Json.readBytes bytes = .ok j ∧ decodeAs target name path j.toValue = .ok v ∧
        decode bytes target path = .ok v) ∨
      (Json.readBytes bytes = .error (.document .tooDeep) ∧ decode bytes target path = .error .tooDeep) ∨
      ∃ fault, decode bytes target path = .error fault ∧ fault.IsReport .decode := by
  cases hread : Json.readBytes bytes with
  | error fault =>
    by_cases hdeep : fault = .document .tooDeep
    · rw [hdeep] at hread
      exact .inr (.inl ⟨by rw [hdeep], decode_of_tooDeep hname hne hread⟩)
    · exact .inr (.inr (decode_of_malformed hname hne hread hdeep))
  | ok j =>
    rw [decode_of_read hname hne hread]
    cases htaken : decodeAs target name path j.toValue with
    | ok v => exact .inl ⟨j, v, rfl, htaken, rfl⟩
    | error fault => exact .inr (.inr ⟨fault, rfl, isReport_of_decodeAs htaken⟩)

theorem not_isReport_tooDeep (kind : ReportKind) : ¬ Fault.tooDeep.IsReport kind := by
  rintro ⟨content, cause, h⟩
  cases h

theorem not_isReport_display (fault : DisplayFault) (kind : ReportKind) : ¬ fault.toFault.IsReport kind := by
  rintro ⟨content, cause, h⟩
  cases fault <;> cases h

theorem not_reported_of_error {fault : Fault} (h : decode bytes target path = .error fault)
    (hfault : ¬ fault.IsReport .decode) :
    ¬ ((∃ v, decode bytes target path = .ok v) ∨
      ∃ fault, decode bytes target path = .error fault ∧ fault.IsReport .decode) := by
  rw [h]
  rintro (⟨v, hv⟩ | ⟨f, hf, hreport⟩)
  · cases hv
  · cases hf
    exact hfault hreport

/-- Reading octets ends with a value or with a report exactly if the target has a name, and either the
target is a record or the document is not nested too deeply. It is so only in a text in which more
brackets open than the reader takes. -/
theorem decode_reports_iff (bytes : Bytes) (target : Target) (path : Option Text) :
    (((∃ v, decode bytes target path = .ok v) ∨
        ∃ fault, decode bytes target path = .error fault ∧ fault.IsReport .decode) ↔
      (∃ name, target.name = .ok name) ∧
        ((∃ type, target = .record type) ∨ Json.readBytes bytes ≠ .error (.document .tooDeep))) ∧
    (Json.readBytes bytes = .error (.document .tooDeep) →
      ∃ s, Text.ofDocument bytes = .ok s ∧ Json.maxDepth < Json.openings s) := by
  refine ⟨⟨?_, ?_⟩, Json.openings_of_readBytes⟩
  · intro hends
    cases hname : target.name with
    | error f =>
      have hdecode : decode bytes target path = .error f.toFault := by rw [decode, hname]
      exact absurd hends (not_reported_of_error hdecode (not_isReport_display f .decode))
    | ok name =>
      refine ⟨⟨name, rfl⟩, or_iff_not_imp_left.mpr ?_⟩
      intro hrecord hdeep
      have hne : ∀ type, target ≠ .record type := fun type heq => hrecord ⟨type, heq⟩
      have hdecode : decode bytes target path = .error .tooDeep := decode_of_tooDeep hname hne hdeep
      exact not_reported_of_error hdecode (not_isReport_tooDeep .decode) hends
  · rintro ⟨⟨name, hname⟩, hread⟩
    -- Records are read by another reader, which reports whatever it refuses.
    by_cases hrecord : ∃ type, target = .record type
    · obtain ⟨type, rfl⟩ := hrecord
      exact decode_record_cases type bytes path
    have hne : ∀ type, target ≠ .record type := fun type heq => hrecord ⟨type, heq⟩
    rcases decode_cases hname hne bytes path with ⟨_, v, _, _, hv⟩ | ⟨hdeep, _⟩ | hreport
    · exact .inl ⟨v, hv⟩
    · exact absurd hdeep (hread.resolve_left hrecord)
    · exact .inr hreport

/-- Twenty thousand brackets end reading a list with a fault that is no report. -/
theorem decode_brackets_not_reported :
    decode (List.replicate 20000 0x5B) .list none = .error .tooDeep ∧
      ¬ ((∃ v, decode (List.replicate 20000 0x5B) .list none = .ok v) ∨
        ∃ fault, decode (List.replicate 20000 0x5B) .list none = .error fault ∧
          fault.IsReport .decode) := by
  have hdeep : Json.readBytes (List.replicate 20000 0x5B) = .error (.document .tooDeep) :=
    Json.readBytes_brackets (by decide)
  have hname : Target.list.name = .ok "list" := rfl
  have hne : ∀ type, Target.list ≠ .record type := by simp
  have hdecode : decode (List.replicate 20000 0x5B) .list none = .error .tooDeep :=
    decode_of_tooDeep hname hne hdeep
  exact ⟨hdecode, not_reported_of_error hdecode (not_isReport_tooDeep .decode)⟩

end CanonStore.Document
