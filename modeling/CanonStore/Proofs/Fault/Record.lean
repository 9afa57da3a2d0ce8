import CanonStore.Fault.Record
import CanonStore.Proofs.Schema.Settled

/-!
# Reports as records and back

A report becomes a record if its parts are accepted; the fields of the record are then the parts of another
report (`AcceptedAs`, `toRecord_eq_ok_iff`). A record is always that of its own report, also after assignments,
because its fields are accepted as they are. A report says the same as the record that it becomes if the keys of
its details are texts; keys of other kinds may be made texts. Main statement: `toRecord_ofRecord`.
-/

namespace CanonStore.Report

open Shape (required optional Takes)

variable {r s : Report} {m : Value} {fs : List (Text × Value)}

/-! ## The parts of a record -/

/-- Every part of the first report is accepted as that of the second one. -/
structure AcceptedAs (r s : Report) : Prop where
  code : Shape.accept .caller .text r.code = .ok s.code
  message : Shape.accept .caller .text r.message = .ok s.message
  details : Shape.accept .caller .mapping r.details = .ok s.details
  retryable : Shape.accept .caller .bool r.retryable = .ok s.retryable
  fatal : Shape.accept .caller .bool r.fatal = .ok s.fatal

/-- What is known of all fields of a record is known of the parts of a report. -/
theorem forall₂_fields_iff {R : FieldOf Shape → Value → Prop} :
    List.Forall₂ (fun f g => g.1 = f.name ∧ R f g.2) RecordType.chainError.fields fs ↔
      ∃ s : Report, fs = s.parts ∧ R (required "code" .text) s.code ∧ R (required "message" .text) s.message ∧
        R (optional "details" .mapping (.dict [])) s.details ∧
        R (optional "retryable" .bool (.bool false)) s.retryable ∧
        R (optional "fatal" .bool (.bool false)) s.fatal := by
  constructor
  · intro h
    simp only [RecordType.fields, List.forall₂_cons_left_iff, List.forall₂_nil_left_iff] at h
    obtain ⟨⟨_, code⟩, _, ⟨rfl, hcode⟩, ⟨⟨_, message⟩, _, ⟨rfl, hmessage⟩, ⟨⟨_, details⟩, _, ⟨rfl, hdetails⟩,
      ⟨⟨_, retryable⟩, _, ⟨rfl, hretryable⟩, ⟨⟨_, fatal⟩, _, ⟨rfl, hfatal⟩, rfl, rfl⟩, rfl⟩, rfl⟩, rfl⟩, rfl⟩ := h
    exact ⟨⟨code, message, details, retryable, fatal, none⟩, rfl, hcode, hmessage, hdetails, hretryable, hfatal⟩
  · rintro ⟨s, rfl, hcode, hmessage, hdetails, hretryable, hfatal⟩
    exact .cons ⟨rfl, hcode⟩ (.cons ⟨rfl, hmessage⟩ (.cons ⟨rfl, hdetails⟩
      (.cons ⟨rfl, hretryable⟩ (.cons ⟨rfl, hfatal⟩ .nil))))

theorem takes_iff {entries : List (Value × Value)} {f : FieldOf Shape} {u v : Value}
    (h : Value.lookup? f.label entries = some u) :
    Takes .caller entries f v ↔ f.shape.accept .caller u = .ok v := by
  simp [Takes, h]

/-- A report becomes a record exactly if its parts are accepted. -/
theorem toRecord_eq_ok_iff : r.toRecord = .ok m ↔ ∃ s, r.AcceptedAs s ∧ m = .record .chainError s.parts := by
  have hentries : Value.joinEntries (r.parts.map fun f => (.text f.1, f.2)) =
      r.parts.map fun f => (.text f.1, f.2) := rfl
  rw [toRecord, RecordType.make, RecordType.shape, hentries, Shape.accept_record_eq_ok_iff]
  simp only [forall₂_fields_iff]
  constructor
  · rintro (⟨_, h, _⟩ | ⟨_, _, h, ⟨s, rfl, hcode, hmessage, hdetails, hretryable, hfatal⟩, rfl, _⟩)
    · cases h
    · cases h
      exact ⟨s, ⟨(takes_iff rfl).mp hcode, (takes_iff rfl).mp hmessage, (takes_iff rfl).mp hdetails,
        (takes_iff rfl).mp hretryable, (takes_iff rfl).mp hfatal⟩, rfl⟩
  · rintro ⟨s, h, rfl⟩
    exact .inr ⟨_, _, rfl, ⟨s, rfl, (takes_iff rfl).mpr h.code, (takes_iff rfl).mpr h.message,
      (takes_iff rfl).mpr h.details, (takes_iff rfl).mpr h.retryable, (takes_iff rfl).mpr h.fatal⟩, rfl, fun _ => rfl⟩

/-- The report of a record has the fields of the record as its parts. -/
theorem ofRecord_parts (h : r.AcceptedAs s) : ofRecord s.parts = { s with path := none } := by
  obtain ⟨_, es, _, _, hes⟩ := Shape.accept_mapping_eq_ok_iff.mp h.details
  have hdetails : (if s.details.isTrue then s.details else Value.dict []) = s.details := by
    rw [← hes]
    cases Value.joinEntries es <;> rfl
  show Report.mk s.code s.message (if s.details.isTrue then s.details else Value.dict []) s.retryable s.fatal none = _
  rw [hdetails]

/-- The record of the report of a record is the record itself. -/
theorem toRecord_of_settled (h : RecordType.chainError.Settled fs) :
    (ofRecord fs).toRecord = .ok (.record .chainError fs) := by
  obtain ⟨s, rfl, hcode, hmessage, hdetails, hretryable, hfatal⟩ :=
    (forall₂_fields_iff (R := fun f v => f.shape.accept .caller v = .ok v)).mp h
  have hself : s.AcceptedAs s := ⟨hcode, hmessage, hdetails, hretryable, hfatal⟩
  rw [ofRecord_parts hself, toRecord_eq_ok_iff]
  exact ⟨s, ⟨hcode, hmessage, hdetails, hretryable, hfatal⟩, rfl⟩

/-! ## Reports that say the same -/

/-- The values are dictionaries with the same entries in the same order: equal values under keys that are equal
as texts. -/
def SameEntries (v w : Value) : Prop :=
  ∃ es fs, v.dictEntries? = some es ∧ w.dictEntries? = some fs ∧
    List.Forall₂ (fun e f => (∃ t, e.1.text? = some t ∧ f.1.text? = some t) ∧ e.2 = f.2) es fs

/-- The reports say the same, whatever their path. -/
structure SameContent (r s : Report) : Prop where
  code : ∃ t, r.code.text? = some t ∧ s.code.text? = some t
  message : ∃ t, r.message.text? = some t ∧ s.message.text? = some t
  details : SameEntries r.details s.details
  retryable : r.retryable = s.retryable
  fatal : r.fatal = s.fatal

/-- The parts of the report are of the kinds that they are meant to be: texts, a dictionary of which all keys
are texts and differ from one another, and truth values. -/
structure WellTyped (r : Report) : Prop where
  code : r.code.text?.isSome
  message : r.message.text?.isSome
  details : ∃ es, r.details.dictEntries? = some es ∧ (∀ e ∈ es, e.1.text?.isSome) ∧
    es.Pairwise fun e f => Value.sameAs e.1 f.1 = false
  retryable : ∃ b, r.retryable = .bool b
  fatal : ∃ b, r.fatal = .bool b

theorem text_of_text? {v : Value} {t u : Text} (hv : v.text? = some t) (h : Scalar.text v = .ok u) : u = t := by
  cases v with
  | text | textMember =>
    cases hv
    exact (Scalar.whole_eq_ok_iff.mp h).2.symm
  | _ => cases hv

theorem accept_text_same {v w : Value} (hv : v.text?.isSome) (h : Shape.accept .caller .text v = .ok w) :
    ∃ t, v.text? = some t ∧ w.text? = some t := by
  obtain ⟨t, ht⟩ := Option.isSome_iff_exists.mp hv
  obtain ⟨u, hu, rfl⟩ := Accepted.scalar_eq_ok_iff.mp h
  exact ⟨t, ht, congrArg some (text_of_text? ht hu)⟩

/-- A dictionary whose keys are texts keeps its entries. -/
theorem accept_mapping_same {v w : Value} {es : List (Value × Value)} (hv : v.dictEntries? = some es)
    (hkeys : ∀ e ∈ es, e.1.text?.isSome) (hdistinct : es.Pairwise fun e f => Value.sameAs e.1 f.1 = false)
    (h : Shape.accept .caller .mapping v = .ok w) : SameEntries v w := by
  obtain ⟨entries, fs, hentries, hfs, rfl⟩ := Shape.accept_mapping_eq_ok_iff.mp h
  obtain rfl := Option.some.inj (hv.symm.trans hentries)
  have hsame : List.Forall₂ (fun e f => (∃ t, e.1.text? = some t ∧ f.1.text? = some t) ∧ e.2 = f.2) es fs := by
    refine forall₂_imp_of_mem hfs fun e he f hef => ?_
    obtain ⟨t, ht⟩ := Option.isSome_iff_exists.mp (hkeys e he)
    obtain ⟨u, hu, rfl⟩ := Shape.acceptEntry_eq_ok_iff.mp hef
    exact ⟨⟨t, ht, congrArg some (text_of_text? ht hu)⟩, rfl⟩
  have hfs := Value.pairwise_of_texts hdistinct (hsame.imp fun _ _ hef => hef.1)
  exact ⟨es, fs, hv, congrArg some (Value.joinEntries_of_pairwise hfs), hsame⟩

theorem accept_bool_same {v w : Value} (hv : ∃ b, v = .bool b) (h : Shape.accept .caller .bool v = .ok w) :
    v = w := by
  obtain ⟨b, rfl⟩ := hv
  exact Except.ok.inj h

/-- A report of the kinds of parts that it is meant to have says the same as the one that it is accepted as. -/
theorem WellTyped.sameContent (hr : r.WellTyped) (h : r.AcceptedAs s) : r.SameContent s := by
  obtain ⟨es, hes, hkeys, hdistinct⟩ := hr.details
  exact
    { code := accept_text_same hr.code h.code
      message := accept_text_same hr.message h.message
      details := accept_mapping_same hes hkeys hdistinct h.details
      retryable := accept_bool_same hr.retryable h.retryable
      fatal := accept_bool_same hr.fatal h.fatal }

end CanonStore.Report
