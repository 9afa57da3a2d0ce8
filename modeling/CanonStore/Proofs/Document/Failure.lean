import CanonStore.Proofs.Document.Payload

/-!
# Values that are not stored

Which faults storing a value can end in. A value without a payload is reported, and so is a payload
without a canonical text: plain values have neither moments nor keys that are no texts, so the faults
that are no reports do not occur in them (`isReported_of_canonicalText`). What is not reported is a canonical text
without octets. Main statement: `encode_reports_iff`.
-/

namespace CanonStore

/-- The fault becomes a report when a value is stored. -/
def CanonicalFault.IsReported (fault : CanonicalFault) : Prop := fault = .tooDeep ∨ fault.isReport

/-- A plain value that has no canonical text is reported. -/
theorem Value.isReported_of_canonicalText {v : Value} (hv : v.Plain) {fault : CanonicalFault}
    (h : v.canonicalText = .error fault) : fault.IsReported := by
  rcases fault_of_canonicalText hv h with rfl | ⟨place, x, rfl⟩ | rfl
  · exact .inl rfl
  · exact .inr rfl
  · exact .inr rfl

namespace Document

theorem isReport_writeFault {fault : CanonicalFault} (h : fault.IsReported) (type : Text) (path : Option Text) :
    (writeFault type path fault).IsReport .encode := by
  cases fault with
  | outOfCalendar | unshownKey => rcases h with h | h <;> cases h
  | _ => exact isReport_encodeFault ..

theorem not_isReport_surrogateFault (fault : EncodingFault) (kind : ReportKind) :
    ¬ (surrogateFault fault).IsReport kind := by
  rintro ⟨content, cause, h⟩
  cases h

/-- A value is stored under the octets of the canonical text of its payload, if it has any. -/
theorem encode_of_text {v w : Value} {path : Option Text} {t : Text} (hpayload : payload v path = .ok w)
    (htext : w.canonicalText = .ok t) : encode v path = (Utf8.encode t).mapError surrogateFault := by
  rw [encode, hpayload]
  show write v.typeName path w = _
  rw [write, htext]

/-- Each fault is a report, or that of a canonical text without octets. -/
theorem encode_eq_error {v : Value} {path : Option Text} {fault : Fault} (h : encode v path = .error fault) :
    fault.IsReport .encode ∨ ∃ w t f, payload v path = .ok w ∧ w.canonicalText = .ok t ∧
      Utf8.encode t = .error f ∧ fault = surrogateFault f := by
  rcases bind_eq_error_iff.mp h with hpayload | ⟨w, hpayload, hwrite⟩
  · exact .inl (isReport_of_payload hpayload)
  rw [write] at hwrite
  split at hwrite
  · next f htext =>
    cases hwrite
    exact .inl (isReport_writeFault (Value.isReported_of_canonicalText (payload_eq_ok hpayload).2 htext) v.typeName path)
  · next t htext =>
    cases hbytes : Utf8.encode t with
    | error f =>
      rw [hbytes] at hwrite
      exact .inr ⟨w, t, f, hpayload, htext, hbytes, (Except.error.inj hwrite).symm⟩
    | ok bytes =>
      rw [hbytes] at hwrite
      cases hwrite

/-- Storing a value ends with octets or with a report exactly if the canonical text of its payload, where
there is one, holds no surrogate. -/
theorem encode_reports_iff (v : Value) (path : Option Text) :
    ((∃ bytes, encode v path = .ok bytes) ∨
        ∃ fault, encode v path = .error fault ∧ fault.IsReport .encode) ↔
      ∀ w t, payload v path = .ok w → w.canonicalText = .ok t → ∀ c ∈ t, c.isSurrogate = false := by
  constructor
  · intro h w t hpayload htext
    -- There is a text, so only its octets may be missing.
    rw [encode_of_text hpayload htext] at h
    cases hbytes : Utf8.encode t with
    | ok bytes => exact ((Utf8.encode_eq_ok_iff t bytes).mp hbytes).1
    | error f =>
      rw [hbytes] at h
      obtain ⟨bytes, hok⟩ | ⟨fault, herror, hreport⟩ := h
      · cases hok
      · cases herror
        exact absurd hreport (not_isReport_surrogateFault f .encode)
  · intro h
    cases hencode : encode v path with
    | ok bytes => exact .inl ⟨bytes, rfl⟩
    | error fault =>
      rcases encode_eq_error hencode with hreport | ⟨w, t, f, hpayload, htext, hbytes, _⟩
      · exact .inr ⟨fault, rfl, hreport⟩
      · have hok := (Utf8.encode_eq_ok_iff t _).mpr ⟨h w t hpayload htext, rfl⟩
        rw [hbytes] at hok
        cases hok

/-- A surrogate without a partner ends storing a dictionary with a fault that is no report. -/
theorem encode_surrogate_not_reported :
    encode (.dict [(.text "a", .text [0xD800])]) none
        = .error (.plain .textEncoding
            "'utf-8' codec can't encode character '\\ud800' in position 6: surrogates not allowed") ∧
      ¬ ((∃ bytes, encode (.dict [(.text "a", .text [0xD800])]) none = .ok bytes) ∨
        ∃ fault, encode (.dict [(.text "a", .text [0xD800])]) none = .error fault ∧
          fault.IsReport .encode) := by
  have hencode : encode (.dict [(.text "a", .text [0xD800])]) none
      = .error (surrogateFault ⟨0xD800, 6, 1⟩) := rfl
  have hmessage : EncodingFault.message ⟨0xD800, 6, 1⟩
      = "'utf-8' codec can't encode character '\\ud800' in position 6: surrogates not allowed" := by
    decide +kernel
  rw [hencode]
  refine ⟨by rw [surrogateFault, hmessage], ?_⟩
  rintro (⟨bytes, h⟩ | ⟨fault, h, hreport⟩)
  · cases h
  · cases h
    exact not_isReport_surrogateFault _ _ hreport

end Document

end CanonStore
