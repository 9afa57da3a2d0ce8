import CanonStore.Proofs.Document.Refusal
import CanonStore.Proofs.Schema.RoundTrip

/-!
# Documents of another form

A record is only read from a document of its own form (`Shape.Fits`): objects in which all fields that have to be
given are, and nothing else is, at every place where the shape has a record. The record that is read has its
defaults wherever the document says nothing (`Shape.Completes`). Both hold of whatever a shape accepts from a
document (`fits_of_accept`), if its records are closed, as those in durable types are. Main statement:
`decode_record_fits`.
-/

namespace CanonStore

namespace Shape

open Json (DistinctKeys)

/-! ## The form of a document -/

mutual

/-- The document has the form that the shape demands. Of texts, numbers and mappings nothing is demanded. -/
def Fits : Shape → Json → Prop
  | .list item, j => ∃ items, j = .list items ∧ ∀ i ∈ items, Fits item i
  | .record _ fields, j =>
    ∃ members, j = .object members ∧ (∀ m ∈ members, MemberFits fields m) ∧
      ∀ f ∈ fields, f.default? = none → ∃ m ∈ members, m.1 = f.label
  | _, _ => True

/-- The key is the label of a field, whose form the member has. -/
def MemberFits : List (FieldOf Shape) → Text × Json → Prop
  | [], _ => False
  | ⟨_, label, shape, _⟩ :: rest, m => (m.1 = label ∧ Fits shape m.2) ∨ MemberFits rest m

end

theorem memberFits_iff (fields : List (FieldOf Shape)) (m : Text × Json) :
    MemberFits fields m ↔ ∃ f ∈ fields, m.1 = f.label ∧ Fits f.shape m.2 := by
  induction fields with
  | nil => simp [MemberFits]
  | cons f rest ih => rw [MemberFits.eq_def, List.exists_mem_cons_iff, ← ih]

mutual

/-- Where the document gives no member for a field, the record in its place holds the default. -/
def Completes : Shape → Json → Value → Prop
  | .list item, j, v => ∃ items vs, j = .list items ∧ v = .list vs ∧ List.Forall₂ (Completes item) items vs
  | .record type fields, j, v =>
    ∃ members fs, j = .object members ∧ v = .record type fs ∧ FieldsComplete members fields fs
  | _, _, _ => True

/-- Each field holds its default or what completes its members. -/
def FieldsComplete (members : List (Text × Json)) : List (FieldOf Shape) → List (Text × Value) → Prop
  | [], fs => fs = []
  | ⟨name, label, shape, default?⟩ :: rest, fs =>
    ∃ v gs, fs = (name, v) :: gs ∧
      ((∀ m ∈ members, m.1 = label → Completes shape m.2 v) ∧
        ((∀ m ∈ members, m.1 ≠ label) → default? = some v)) ∧
      FieldsComplete members rest gs

end

theorem fieldsComplete_iff (members : List (Text × Json)) (fields : List (FieldOf Shape))
    (fs : List (Text × Value)) :
    FieldsComplete members fields fs ↔
      List.Forall₂ (fun f g => g.1 = f.name ∧ (∀ m ∈ members, m.1 = f.label → Completes f.shape m.2 g.2) ∧
        ((∀ m ∈ members, m.1 ≠ f.label) → f.default? = some g.2)) fields fs := by
  apply iff_forall₂_of_cons (P := FieldsComplete members)
  · exact fun _ => Iff.rfl
  · intro f rest fs
    constructor
    · rintro ⟨v, gs, rfl, hv, hrest⟩
      exact ⟨(f.name, v), gs, rfl, ⟨rfl, hv⟩, hrest⟩
    · rintro ⟨⟨_, v⟩, gs, rfl, ⟨rfl, hv⟩, hrest⟩
      exact ⟨v, gs, rfl, hv, hrest⟩

mutual

/-- All records in the shape refuse fields that they do not know. -/
def Closed : Shape → Prop
  | .list item => Closed item
  | .record type fields => type.isClosed ∧ FieldsClosed fields
  | _ => True

/-- The shapes of all fields are closed. -/
def FieldsClosed : List (FieldOf Shape) → Prop
  | [] => True
  | ⟨_, _, shape, _⟩ :: rest => Closed shape ∧ FieldsClosed rest

end

theorem fieldsClosed_iff (fields : List (FieldOf Shape)) :
    FieldsClosed fields ↔ ∀ f ∈ fields, Closed f.shape :=
  iff_forall_mem_of_cons trivial (fun _ _ => Iff.rfl) fields

/-- Durable records are closed, and so are all records in them. -/
theorem closed_of_isDurable {type : RecordType} (h : type.isDurable) : type.shape.Closed := by
  cases type <;> simp_all [RecordType.shape, RecordType.isDurable, RecordType.isClosed, RecordType.fields,
    timestampFields, transactionFields, Closed, FieldsClosed, required, optional, anyInt]

/-! ## What is accepted -/

section Members

variable {members : List (Text × Json)}

/-- A field is taken from the only member under its label, or it holds its default because there is none. -/
theorem completes_of_takes {f : FieldOf Shape} {v : Value} (hkeys : (members.map Prod.fst).Nodup)
    (haccept : ∀ m ∈ members, f.shape.accept .document m.2.toValue = .ok v →
      f.shape.Fits m.2 ∧ f.shape.Completes m.2 v)
    (h : Takes .document (members.map (Prod.map Value.text Json.toValue)) f v) :
    (∀ m ∈ members, m.1 = f.label → f.shape.Fits m.2 ∧ f.shape.Completes m.2 v) ∧
      ((∀ m ∈ members, m.1 ≠ f.label) → f.default? = some v) := by
  refine ⟨fun m hm hlabel => ?_, fun hnone => ?_⟩
  · have hlookup := Json.lookup?_entries hkeys hm
    rw [hlabel] at hlookup
    obtain ⟨u, hu, hok⟩ | ⟨hnone, _⟩ := h
    · obtain rfl := Option.some.inj (hlookup.symm.trans hu)
      exact haccept m hm hok
    · cases hlookup.symm.trans hnone
  · have hlookup := Json.lookup?_entries_eq_none_iff.mpr hnone
    obtain ⟨u, hu, _⟩ | ⟨_, hdefault⟩ := h
    · cases hlookup.symm.trans hu
    · exact hdefault

/-- Members that only stand for fields, with every field either there or with a default, make a record that has
the form and is completed from the members. -/
theorem fits_record {type : RecordType} {fields : List (FieldOf Shape)} {fs : List (Text × Value)}
    (h : List.Forall₂ (fun f g => g.1 = f.name ∧
      (∀ m ∈ members, m.1 = f.label → f.shape.Fits m.2 ∧ f.shape.Completes m.2 g.2) ∧
        ((∀ m ∈ members, m.1 ≠ f.label) → f.default? = some g.2)) fields fs)
    (hlabels : ∀ m ∈ members, m.1 ∈ fields.map FieldOf.label) :
    (record type fields).Fits (.object members) ∧
      (record type fields).Completes (.object members) (.record type fs) := by
  refine ⟨⟨members, rfl, fun m hm => ?_, fun f hf hrequired => ?_⟩, members, fs, rfl, rfl, ?_⟩
  · obtain ⟨f, hf, hlabel⟩ := List.mem_map.mp (hlabels m hm)
    obtain ⟨g, _, _, hmember, _⟩ := exists_of_mem_left h hf
    exact (memberFits_iff fields m).mpr ⟨f, hf, hlabel.symm, (hmember m hm hlabel.symm).1⟩
  · -- Without a member the field would have a default.
    obtain ⟨g, _, _, _, hdefault⟩ := exists_of_mem_left h hf
    by_contra hnone
    simp only [not_exists, not_and] at hnone
    cases hrequired.symm.trans (hdefault hnone)
  · refine (fieldsComplete_iff members fields fs).mpr (h.imp ?_)
    rintro f g ⟨hname, hmember, hdefault⟩
    exact ⟨hname, fun m hm hlabel => (hmember m hm hlabel).2, hdefault⟩

end Members

/-- What a closed shape accepts from a document is completed from it, and the document has its form. -/
theorem fits_of_accept {s : Shape} (hs : s.Closed) {j : Json} (hj : DistinctKeys j) {v : Value}
    (h : s.accept .document j.toValue = .ok v) : s.Fits j ∧ s.Completes j v := by
  induction s generalizing j v with
  | list item ih =>
    cases j with
    | list items =>
      rw [Json.toValue_list, accept_list_eq_ok_iff] at h
      obtain ⟨_, vs, hitems, hvs, rfl⟩ := h
      cases hitems
      rw [List.forall₂_map_left_iff] at hvs
      have hdistinct := (Json.distinctKeys_list_iff items).mp hj
      have hitems : List.Forall₂ (fun i w => item.Fits i ∧ item.Completes i w) items vs :=
        forall₂_imp_of_mem hvs fun i hi w hw => ih hs (hdistinct i hi) hw
      refine ⟨⟨items, rfl, fun i hi => ?_⟩, items, vs, rfl, rfl, hitems.imp fun _ _ hw => hw.2⟩
      obtain ⟨_, _, hfits, _⟩ := exists_of_mem_left hitems hi
      exact hfits
    | _ => cases h
  | record type fields ih =>
    cases j with
    | object members =>
      rw [Json.toValue_object, accept_record_eq_ok_iff] at h
      obtain ⟨_, hrecord, _⟩ | ⟨_, fs, hentries, hfs, rfl, hextra⟩ := h
      · -- A document does not hold a finished record.
        cases hrecord
      cases hentries
      obtain ⟨hclosed, hfields⟩ := hs
      rw [fieldsClosed_iff] at hfields
      obtain ⟨hkeys, hmembers⟩ := (Json.distinctKeys_object_iff members).mp hj
      refine fits_record (forall₂_imp_of_mem hfs ?_) (extraProblems_eq_nil_iff.mp (hextra hclosed))
      rintro f hf g ⟨hname, htakes⟩
      exact ⟨hname, completes_of_takes hkeys
        (fun m hm haccept => ih f hf (hfields f hf) (hmembers m hm) haccept) htakes⟩
    | _ => cases h
  | _ => exact ⟨trivial, trivial⟩

end Shape

namespace Document

/-- A durable record is read only from a document of its own form, and then the record has its defaults wherever
the document says nothing. All other octets are refused with a report. -/
theorem decode_record_fits {type : RecordType} (htype : type.isDurable) (bytes : Bytes) (path : Option Text) :
    ((¬ ∃ j, Json.readStrict? bytes = some j ∧ type.shape.Fits j) →
        ∃ fault, decode bytes (.record type) path = .error fault ∧ fault.IsReport .decode) ∧
      ∀ v, decode bytes (.record type) path = .ok v →
        ∃ j, Json.readStrict? bytes = some j ∧ type.shape.Fits j ∧ type.shape.Completes j v := by
  have hread : ∀ v, decode bytes (.record type) path = .ok v →
      ∃ j, Json.readStrict? bytes = some j ∧ type.shape.Fits j ∧ type.shape.Completes j v := by
    intro v h
    have hrecord := mapError_eq_ok_iff.mp h
    unfold readRecord at hrecord
    split at hrecord
    · cases hrecord
    · next j hj =>
      have haccepted := mapError_eq_ok_iff.mp hrecord
      exact ⟨j, hj,
        Shape.fits_of_accept (Shape.closed_of_isDurable htype) (Json.distinctKeys_of_readStrict hj) haccepted⟩
  -- A document of another form is not read, and what is not read is reported.
  refine ⟨fun hfits => ?_, hread⟩
  rcases decode_record_cases type bytes path with ⟨v, hv⟩ | hreport
  · obtain ⟨j, hj, hform, _⟩ := hread v hv
    exact absurd ⟨j, hj, hform⟩ hfits
  · exact hreport

/-- A block is refused whose time lacks its seconds. A transaction that is only named has its defaults. -/
theorem decode_record_fits_partial :
    (∃ fault, decode (Text.toBytes "\x7b\"created_at\":\x7b\x7d,\"number\":null,\"previous_hash\":\"\"\x7d")
        (.record .block) none = .error fault ∧ fault.IsReport .decode) ∧
      ∃ v, decode (Text.toBytes "\x7b\"tx_id\":\"t\"\x7d") (.record .transaction) none = .ok v ∧
        v = .record .transaction [("tx_id", .text "t"), ("payload", .bytes []), ("amount", .int 0),
          ("fee", .float .zero)] ∧
        ∃ j, Json.readStrict? (Text.toBytes "\x7b\"tx_id\":\"t\"\x7d") = some j ∧
          RecordType.transaction.shape.Fits j ∧ RecordType.transaction.shape.Completes j v := by
  constructor
  · have hstrict : Json.readStrict?
        (Text.toBytes "\x7b\"created_at\":\x7b\x7d,\"number\":null,\"previous_hash\":\"\"\x7d") =
        some (.object [("created_at", .object []), ("number", .null), ("previous_hash", .text [])]) :=
      Json.readStrict_write (j := .object [("created_at", .object []), ("number", .null), ("previous_hash", .text [])])
        ⟨by decide, ⟨by decide, trivial⟩, trivial, trivial, trivial⟩
        ⟨by decide, ⟨List.nodup_nil, trivial⟩, trivial, trivial, trivial⟩ (by decide) (by decide +kernel)
    refine (decode_record_fits rfl _ none).1 ?_
    rintro ⟨j, hj, members, hmembers, hfits, _⟩
    obtain rfl := Option.some.inj (hj.symm.trans hstrict)
    cases hmembers
    -- Only the third field has this label, and the time it holds would need its seconds.
    obtain ⟨h, _⟩ | ⟨h, _⟩ | ⟨_, time, htime, _, hrequired⟩ | ⟨h, _⟩ | ⟨h, _⟩ | ⟨h, _⟩ | h :=
      hfits ("created_at", .object []) List.mem_cons_self
    · exact absurd h (by decide)
    · exact absurd h (by decide)
    · cases htime
      obtain ⟨m, hm, _⟩ := hrequired _ List.mem_cons_self rfl
      cases hm
    · exact absurd h (by decide)
    · exact absurd h (by decide)
    · exact absurd h (by decide)
    · exact h
  · have hstrict : Json.readStrict? (Text.toBytes "\x7b\"tx_id\":\"t\"\x7d") =
        some (.object [("tx_id", .text "t")]) :=
      Json.readStrict_write (j := .object [("tx_id", .text "t")]) ⟨by decide, trivial, trivial⟩
        ⟨by decide, trivial, trivial⟩ (by decide) (by decide +kernel)
    have hdecode : decode (Text.toBytes "\x7b\"tx_id\":\"t\"\x7d") (.record .transaction) none =
        .ok (.record .transaction [("tx_id", .text "t"), ("payload", .bytes []), ("amount", .int 0),
          ("fee", .float .zero)]) := by
      simp only [decode, Target.name, readRecord, hstrict]
      rfl
    exact ⟨_, hdecode, rfl, (decode_record_fits rfl _ none).2 _ hdecode⟩

end Document

end CanonStore
