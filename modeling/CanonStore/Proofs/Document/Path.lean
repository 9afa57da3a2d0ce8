import CanonStore.Proofs.Document.Failure

/-!
# Reports on a path

What the path is for when a value is stored. A value has the same octets with a path as without one, and it is
refused with a path exactly if it is without: for the same reason, with the same cause and the same details
(`encode_cases`). The report on a path tells the path besides, in its details too. There it takes the place of
another detail of the same name, which is lost: a float that is not finite is reported at its own path inside
the value. Main statement: `encode_path_enriches`.
-/

namespace CanonStore

/-- The details of a report. -/
def Fault.details (fault : Fault) : List (Value × Value) :=
  (fault.report?.bind fun r => r.2.details.dictEntries?).getD []

/-- What the details of a report say under a name. -/
def Fault.detail? (key : Text) (fault : Fault) : Option Value := Value.lookup? key fault.details

namespace Fault

open Value (lookup? lookup?_setEntry forall_mem_setEntry)

variable {key : Text} {cause : Option Fault} {details : List (Value × Value)}

/-- Under every other name completed details say the same with a path as without one. -/
theorem lookup?_complete_of_ne (h : key ≠ "path") (path : Option Text) :
    lookup? key (complete path cause details) = lookup? key (complete none cause details) := by
  cases path with
  | none => rfl
  | some p => cases cause <;> simp only [complete, lookup?_setEntry, if_neg h]

/-- The cause says nothing under the name of the path. -/
theorem lookup?_complete_path (path : Option Text) :
    lookup? "path" (complete path cause details) = (path.map Value.text).or (lookup? "path" details) := by
  have hcause : Text.ofString "path" ≠ "cause" ∧ Text.ofString "path" ≠ "cause_type" := by decide
  cases path <;> cases cause <;>
    simp only [complete, lookup?_setEntry, if_neg hcause.1, if_neg hcause.2, if_true, Option.map_none,
      Option.map_some, Option.none_or, Option.some_or]

/-- All names are texts, before and after details are completed. -/
theorem text?_isSome_of_mem_complete (h : ∀ e ∈ details, e.1.text?.isSome) (path : Option Text) :
    ∀ e ∈ complete path cause details, e.1.text?.isSome := by
  have hset : ∀ (name : Text) (v : Value) {entries : List (Value × Value)},
      (∀ e ∈ entries, e.1.text?.isSome) → ∀ e ∈ Value.setEntry (.text name) v entries, e.1.text?.isSome := by
    intro name v entries hentries e he
    exact (forall_mem_setEntry (P := fun k => k.text?.isSome) (Q := fun _ => True) rfl trivial
      (fun f hf => ⟨hentries f hf, trivial⟩) e he).1
  have hpath : ∀ e ∈ complete path none details, e.1.text?.isSome := by
    cases path with
    | none => exact h
    | some p => exact hset "path" (.text p) h
  cases cause with
  | none => exact hpath
  | some c => exact hset _ _ (hset _ _ hpath)

end Fault

namespace Document

open Value (lookup?)

theorem details_encodeFault (type : Text) (path : Option Text) (reason : Text) (cause : Option Fault)
    (details : List (Value × Value)) :
    (encodeFault type path reason cause details).details = Fault.complete path cause details :=
  rfl

/-! ## One report for every path -/

/-- A document that is not plain is refused for the same reason whatever the path. -/
theorem requirePlain_cases (type : Text) (document : Value) :
    (∀ path, requirePlain type document path = .ok document) ∨
      ∃ reason cause details, lookup? "path" (Fault.fields details) = none ∧
        ∀ path, requirePlain type document path = .error (encodeFault type path reason cause (Fault.fields details)) := by
  unfold requirePlain
  cases document.firstForeign with
  | error fault => exact .inr ⟨_, _, [], rfl, fun _ => rfl⟩
  | ok found =>
    cases found with
    | none => exact .inl fun _ => rfl
    | some found =>
      exact .inr ⟨_, _, [("location", found.1.toValue), ("type", .text found.2)], rfl, fun _ => rfl⟩

/-- A value that has no payload is refused for the same reason whatever the path. -/
theorem payload_cases (v : Value) :
    (∃ w, ∀ path, payload v path = .ok w) ∨
      ∃ reason cause details, lookup? "path" (Fault.fields details) = none ∧
        ∀ path, payload v path = .error (encodeFault v.typeName path reason cause (Fault.fields details)) := by
  -- Dictionaries, lists and what entries become all go through one gate.
  have hgate : ∀ (type : Text) (document : Value), (∃ w, ∀ path, requirePlain type document path = .ok w) ∨
      ∃ reason cause details, lookup? "path" (Fault.fields details) = none ∧
        ∀ path, requirePlain type document path
          = .error (encodeFault type path reason cause (Fault.fields details)) :=
    fun type document => (requirePlain_cases type document).imp_left fun h => ⟨document, h⟩
  cases v with
  | record type fields =>
    simp only [payload]
    cases type.dump fields with
    | ok j => exact .inl ⟨_, fun _ => rfl⟩
    | error fault => exact .inr ⟨_, _, [], rfl, fun path => recordPayload_dumpFault type.name path fault⟩
  | dict entries => exact hgate _ (.dict entries)
  | list items => exact hgate _ (.list items)
  | endless shape => exact hgate _ (.endless shape)
  | entry type fields =>
    simp only [payload]
    cases type.isStorable with
    | false => exact .inr ⟨_, _, [("type", .text _)], rfl, fun _ => rfl⟩
    | true =>
      cases type.toDict fields with
      | error fault => exact .inr ⟨_, _, [], rfl, fun _ => rfl⟩
      | ok document =>
        simp only [Bool.not_true, Bool.false_eq_true, if_false, entryPayload]
        cases document.dictEntries? with
        | none => exact .inr ⟨_, _, [], rfl, fun _ => rfl⟩
        | some entries => exact hgate type.name document
  | foreign kind =>
    cases kind with
    | ledgerEntryType => exact .inr ⟨_, _, [], rfl, fun _ => rfl⟩
    | _ => exact .inr ⟨_, _, [("type", .text _)], rfl, fun _ => rfl⟩
  | _ => exact .inr ⟨_, _, [("type", .text _)], rfl, fun _ => rfl⟩

/-- The payload of the value holds a float that is not finite, the first one at the given place. -/
def NotFiniteAt (v : Value) (place : Value) : Prop :=
  ∃ w p x, payload v none = .ok w ∧ w.canonicalText = .error (.nonFinite p x) ∧ place = p.toValue

/-- A payload without a canonical text is refused for the same reason whatever the path. The reason has a path
of its own if it is a float. -/
theorem writeFault_cases (type : Text) {w : Value} (hw : w.Plain) {fault : CanonicalFault}
    (h : w.canonicalText = .error fault) :
    ∃ reason cause details, (∀ place, lookup? "path" (Fault.fields details) = some place ↔
        ∃ p x, fault = .nonFinite p x ∧ place = p.toValue) ∧
      ∀ path, writeFault type path fault = encodeFault type path reason cause (Fault.fields details) := by
  rcases Value.fault_of_canonicalText hw h with rfl | ⟨p, x, rfl⟩ | rfl
  · exact ⟨_, _, [], by simp [Fault.fields, lookup?], fun _ => rfl⟩
  · refine ⟨_, _, [("path", p.toValue), ("value", .text x.text)], fun place => ?_, fun _ => rfl⟩
    have hlookup : lookup? "path" (Fault.fields [("path", p.toValue), ("value", .text x.text)])
        = some p.toValue := rfl
    rw [hlookup]
    simp [eq_comm]
  · refine ⟨_, _, [("type", .text w.typeName), ("error", .text Json.unwritableText)], fun place => ?_, fun _ => rfl⟩
    have hlookup : lookup? "path" (Fault.fields [("type", .text w.typeName), ("error", .text Json.unwritableText)])
        = none := rfl
    rw [hlookup]
    simp

/-- Storing a value gives the same octets for every path, or ends in the same fault that is no report, or is
refused for the same reason. -/
theorem encode_cases (v : Value) :
    (∃ bytes, ∀ path, encode v path = .ok bytes) ∨
      (∃ fault, ¬ fault.IsReport .encode ∧ ∀ path, encode v path = .error fault) ∨
      ∃ reason cause details, (∀ place, lookup? "path" (Fault.fields details) = some place ↔ NotFiniteAt v place) ∧
        ∀ path, encode v path = .error (encodeFault v.typeName path reason cause (Fault.fields details)) := by
  -- The path is only told in reports, so each stage goes the same way under every path.
  rcases payload_cases v with ⟨w, hpayload⟩ | ⟨reason, cause, details, hpath, hpayload⟩
  · cases htext : w.canonicalText with
    | ok t =>
      simp only [fun path => encode_of_text (hpayload path) htext]
      cases Utf8.encode t with
      | ok bytes => exact .inl ⟨bytes, fun _ => rfl⟩
      | error f => exact .inr (.inl ⟨_, not_isReport_surrogateFault f .encode, fun _ => rfl⟩)
    | error fault =>
      obtain ⟨reason, cause, details, hpath, hfault⟩ := writeFault_cases v.typeName (payload_eq_ok (hpayload none)).2 htext
      refine .inr (.inr ⟨reason, cause, details, fun place => ?_, fun path => ?_⟩)
      · rw [hpath, NotFiniteAt]
        simp [hpayload, htext]
      · simp only [encode, write, hpayload, htext, bind, Except.bind, hfault]
  · refine .inr (.inr ⟨reason, cause, details, fun place => ?_, fun path => ?_⟩)
    · simp [NotFiniteAt, hpayload, hpath]
    · simp only [encode, hpayload, bind, Except.bind]

/-- What a report on a path says, compared with the report on no path. Under all other names the details are
the same, and the path is added. It hides the place of a float that is not finite, which the report on no path
has under that name. -/
theorem detail?_encodeFault_path (v : Value) (p : Text) (reason : Text) (cause : Option Fault)
    {details : List (Value × Value)} (hpath : ∀ place, lookup? "path" details = some place ↔ NotFiniteAt v place) :
    (∀ key : Text, key ≠ "path" → (encodeFault v.typeName (some p) reason cause details).detail? key =
        (encodeFault v.typeName none reason cause details).detail? key) ∧
      (encodeFault v.typeName (some p) reason cause details).detail? "path" = some (.text p) ∧
      ∀ place, (encodeFault v.typeName none reason cause details).detail? "path" = some place ↔ NotFiniteAt v place := by
  simp only [Fault.detail?, details_encodeFault, Fault.lookup?_complete_path]
  refine ⟨fun key hkey => Fault.lookup?_complete_of_ne hkey (some p), rfl, fun place => ?_⟩
  rw [Option.map_none, Option.none_or]
  exact hpath place

/-- A path changes neither the octets of a value nor whether it is reported that there are none. A report on a
path says everything that the report on no path does, unless the value holds a float that is not finite: its
place inside the value is lost, if it is not spelled as the path is. -/
theorem encode_path_enriches (v : Value) (p : Text) :
    (∀ bytes, encode v (some p) = .ok bytes ↔ encode v none = .ok bytes) ∧
      ((∃ g, encode v (some p) = .error g ∧ g.IsReport .encode) ↔
        ∃ f, encode v none = .error f ∧ f.IsReport .encode) ∧
      ∀ f g, encode v none = .error f → f.IsReport .encode → encode v (some p) = .error g →
        (∀ e ∈ f.details, e.1.text?.isSome) ∧
        (∀ key : Text, key ≠ "path" → g.detail? key = f.detail? key) ∧ g.detail? "path" = some (.text p) ∧
        ((∀ key x, f.detail? key = some x → g.detail? key = some x) ↔
          ∀ place, NotFiniteAt v place → place = .text p) := by
  rcases encode_cases v with ⟨bytes, h⟩ | ⟨fault, hfault, h⟩ | ⟨reason, cause, details, hpath, h⟩
  · simp [h]
  · simp [h, hfault]
  · simp only [h, reduceCtorEq, Except.error.injEq]
    refine ⟨fun _ => trivial, ?_, ?_⟩
    · exact iff_of_true ⟨_, rfl, isReport_encodeFault ..⟩ ⟨_, rfl, isReport_encodeFault ..⟩
    · rintro _ _ rfl - rfl
      -- The path of the file takes the key under which a float that is not finite had its place.
      obtain ⟨hsame, hadded, hplace⟩ := detail?_encodeFault_path v p reason cause hpath
      have htexts : ∀ e ∈ Fault.fields details, e.1.text?.isSome := List.forall_mem_map.mpr fun _ _ => rfl
      refine ⟨Fault.text?_isSome_of_mem_complete htexts none, hsame, hadded, fun hkept place hfloat => ?_,
        fun hfloat key x hx => ?_⟩
      · have hlost := hkept "path" place ((hplace place).mpr hfloat)
        exact Option.some.inj (hlost.symm.trans hadded)
      · by_cases hkey : key = "path"
        · subst hkey
          rw [hadded, hfloat x ((hplace x).mp hx)]
        · rw [hsame key hkey, hx]

/-- Of octets inside a value, whose place is told under another name, a report on a path tells everything. -/
theorem encode_path_enriches_octets :
    ∃ f g, encode (.dict [(.text "a", .bytes [])]) none = .error f ∧ f.IsReport .encode ∧
      encode (.dict [(.text "a", .bytes [])]) (some "f.json") = .error g ∧
      f.detail? "location" = some (.text "a") ∧ ∀ key x, f.detail? key = some x → g.detail? key = some x := by
  obtain ⟨_, _, _, hkept⟩ :=
    (encode_path_enriches (.dict [(.text "a", .bytes [])]) "f.json").2.2 _ _ rfl ⟨_, _, rfl⟩ rfl
  refine ⟨_, _, rfl, ⟨_, _, rfl⟩, rfl, rfl, hkept.mpr ?_⟩
  rintro place ⟨w, _, _, hpayload, _⟩
  cases hpayload

/-- The place of a float that is not finite is in the details of a report on no path, but not in those of a
report on a path. -/
theorem encode_path_hides_place :
    ∃ f g, encode (.dict [(.text "a", .float .nan)]) none = .error f ∧ f.IsReport .encode ∧
      encode (.dict [(.text "a", .float .nan)]) (some "f.json") = .error g ∧ g.IsReport .encode ∧
      f.detail? "path" = some (.text "a") ∧ g.detail? "path" = some (.text "f.json") :=
  ⟨_, _, rfl, ⟨_, _, rfl⟩, rfl, ⟨_, _, rfl⟩, rfl, rfl⟩

end Document

end CanonStore
