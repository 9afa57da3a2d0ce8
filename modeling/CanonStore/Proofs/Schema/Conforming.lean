import CanonStore.Proofs.Json.Tree
import CanonStore.Proofs.Schema.Acceptance
import Mathlib.Data.List.Nodup

/-!
# Accepted values

`Shape.Holds` describes the values that a field of a shape holds: what the conversions of the shape
give, and no other values. Acceptance yields only such values (`holds_accept`), so every record that is
made, read or assigned to is one (`RecordType.Built.holds`). A record that is handed over is not looked at
again, and neither are the values of a mapping, which is why the value at hand has to be `Shape.Sound`; documents
always are. Defaults are not looked at either, so the catalogue has to be `Shape.Lawful`, and it is
(`RecordType.lawful_shape`).
-/

namespace CanonStore

namespace Shape

/-- Induction on shapes. -/
@[elab_as_elim, induction_eliminator]
theorem inductionOn {P : Shape → Prop} (text : P .text) (bytes : P .bytes) (int : ∀ bounds, P (.int bounds))
    (float : P .float) (bool : P .bool) (moment : P .moment) (mapping : P .mapping)
    (optionalText : P .optionalText) (option : P .option) (callable : P .callable)
    (list : ∀ item, P item → P (.list item))
    (record : ∀ type (fields : List (FieldOf Shape)), (∀ f ∈ fields, P f.shape) → P (.record type fields))
    (s : Shape) : P s :=
  @Shape.rec P (fun fields => ∀ f ∈ fields, P f.shape) (fun f => P f.shape)
    text bytes int float bool moment mapping optionalText option callable list record
    (fun _ h => nomatch h) (fun _ _ hf hrest => List.forall_mem_cons.mpr ⟨hf, hrest⟩)
    (fun _ _ _ _ hshape => hshape) s

/-! ## What a field holds -/

mutual

/-- A field of the shape holds the value. Values of a mapping are what `inside` says. -/
def Holds (inside : Value → Prop) : Shape → Value → Prop
  | .text, v => ∃ t, v = .text t
  | .bytes, v => ∃ b, v = .bytes b
  | .int bounds, v => ∃ n, v = .int n ∧ ∀ b ∈ bounds, b.holds n
  | .float, v => ∃ x, v = .float x
  | .bool, v => ∃ b, v = .bool b
  | .moment, v => ∃ m, v = .moment m
  | .mapping, v => ∃ es, v = .dict es ∧ ∀ e ∈ es, (∃ t, e.1 = .text t) ∧ inside e.2
  | .optionalText, v => v = .null ∨ ∃ t, v = .text t
  | .option, v => ∃ o ∈ optionMembers, v = .textMember o.1 o.2
  | .callable, v => ∃ kind, v = .foreign kind ∧ kind.isCallable
  | .list item, v => ∃ vs, v = .list vs ∧ ∀ w ∈ vs, Holds inside item w
  | .record type fields, v => ∃ fs, v = .record type fs ∧ FieldsHold inside fields fs

/-- Each declared field holds the value that stands in its place, under its name. -/
def FieldsHold (inside : Value → Prop) : List (FieldOf Shape) → List (Text × Value) → Prop
  | [], fs => fs = []
  | ⟨name, _, shape, _⟩ :: rest, fs =>
    ∃ v gs, fs = (name, v) :: gs ∧ Holds inside shape v ∧ FieldsHold inside rest gs

end

theorem fieldsHold_iff {inside : Value → Prop} (fields : List (FieldOf Shape)) (fs : List (Text × Value)) :
    FieldsHold inside fields fs ↔
      List.Forall₂ (fun f g => g.1 = f.name ∧ Holds inside f.shape g.2) fields fs := by
  apply iff_forall₂_of_cons (P := FieldsHold inside)
  · exact fun _ => Iff.rfl
  · intro f rest fs
    constructor
    · rintro ⟨v, gs, rfl, hv, hrest⟩
      exact ⟨(f.name, v), gs, rfl, ⟨rfl, hv⟩, hrest⟩
    · rintro ⟨⟨_, v⟩, gs, rfl, ⟨rfl, hv⟩, hrest⟩
      exact ⟨v, gs, rfl, hv, hrest⟩

end Shape

/-! ## What is accepted -/

mutual

/-- Records in the shape have the fields of their type, whose defaults these fields could hold. -/
def Shape.Lawful : Shape → Prop
  | .list item => Shape.Lawful item
  | .record type fields => fields = type.fields ∧ Shape.FieldsLawful fields
  | _ => True

/-- All fields are lawful, and hold their defaults. -/
def Shape.FieldsLawful : List (FieldOf Shape) → Prop
  | [] => True
  | ⟨_, _, shape, default?⟩ :: rest =>
    Shape.Lawful shape ∧ (∀ inside d, default? = some d → Shape.Holds inside shape d) ∧
      Shape.FieldsLawful rest

end

theorem Shape.fieldsLawful_iff (fields : List (FieldOf Shape)) :
    FieldsLawful fields ↔ ∀ f ∈ fields, Lawful f.shape ∧
      ∀ inside d, f.default? = some d → Holds inside f.shape d :=
  iff_forall_mem_of_cons trivial (fun _ _ => and_assoc.symm) fields

mutual

/-- What a shape does not look at is in order: a record that the value is, or that stands where the shape looks for
one, holds what its type says, and the values of a mapping are what `inside` says. -/
def Shape.Sound (inside : Value → Prop) : Shape → Value → Prop
  | .mapping, v => ∀ entries, v.dictEntries? = some entries → ∀ e ∈ entries, inside e.2
  | .list item, v => ∀ items, v.listItems? = some items → ∀ w ∈ items, Shape.Sound inside item w
  | .record type fields, v =>
    (∀ fs, v = .record type fs → Shape.Holds inside (.record type fields) v) ∧
      ∀ entries, v.dictEntries? = some entries → Shape.FieldsSound inside fields entries
  | _, _ => True

/-- What is given for each field is sound. -/
def Shape.FieldsSound (inside : Value → Prop) : List (FieldOf Shape) → List (Value × Value) → Prop
  | [], _ => True
  | ⟨_, label, shape, _⟩ :: rest, entries =>
    (∀ v, Value.lookup? label entries = some v → Shape.Sound inside shape v) ∧
      Shape.FieldsSound inside rest entries

end

theorem Shape.fieldsSound_iff {inside : Value → Prop} {entries : List (Value × Value)} (fields : List (FieldOf Shape)) :
    FieldsSound inside fields entries ↔
      ∀ f ∈ fields, ∀ v, Value.lookup? f.label entries = some v → Sound inside f.shape v :=
  iff_forall_mem_of_cons (P := fun fs => FieldsSound inside fs entries) trivial (fun _ _ => Iff.rfl) fields

namespace Shape

/-- The entries of a document are texts with documents. -/
theorem exists_entries_of_dictEntries? {j : Json} {entries : List (Value × Value)}
    (h : j.toValue.dictEntries? = some entries) :
    ∃ ms : List (Text × Json), entries = ms.map fun m => (.text m.1, m.2.toValue) := by
  cases j with
  | object ms =>
    rw [Json.toValue_object] at h
    exact ⟨ms, (Option.some.inj h).symm⟩
  | _ => cases h

/-- The items of a document are documents. -/
theorem exists_items_of_listItems? {j : Json} {items : List Value} (h : j.toValue.listItems? = some items) :
    ∃ js : List Json, items = js.map Json.toValue := by
  cases j with
  | list js =>
    rw [Json.toValue_list] at h
    exact ⟨js, (Option.some.inj h).symm⟩
  | _ => cases h

/-- Acceptance gives only what a field of the shape holds. -/
theorem holds_accept {inside : Value → Prop} {s : Shape} (hs : s.Lawful) {origin : Origin} {v w : Value}
    (hv : s.Sound inside v) (h : s.accept origin v = .ok w) : s.Holds inside w := by
  induction s generalizing v w with
  | text | bytes | float | bool | moment =>
    obtain ⟨x, _, rfl⟩ := Accepted.scalar_eq_ok_iff.mp h
    exact ⟨x, rfl⟩
  | int bounds =>
    obtain ⟨n, _, hbounds, rfl⟩ := accept_int_eq_ok_iff.mp h
    exact ⟨n, rfl, hbounds⟩
  | mapping =>
    obtain ⟨entries, es, hentries, hes, rfl⟩ := accept_mapping_eq_ok_iff.mp h
    refine ⟨_, rfl, Value.forall_mem_joinEntries (P := fun k => ∃ t, k = .text t) (Q := inside) fun e he => ?_⟩
    obtain ⟨f, hf, haccept⟩ := exists_of_mem_right hes he
    obtain ⟨t, _, rfl⟩ := acceptEntry_eq_ok_iff.mp haccept
    exact ⟨⟨t, rfl⟩, hv entries hentries f hf⟩
  | optionalText =>
    obtain ⟨_, rfl⟩ | ⟨t, _, rfl⟩ := accept_optionalText_eq_ok_iff.mp h
    · exact .inl rfl
    · exact .inr ⟨t, rfl⟩
  | option =>
    obtain ⟨t, _, ht⟩ := accept_option_eq_ok_iff.mp h
    obtain ⟨o, ho, _, rfl⟩ := exists_member_of_optionOfText? ht
    exact ⟨o, ho, rfl⟩
  | callable =>
    obtain ⟨kind, _, hkind, rfl⟩ := accept_callable_eq_ok_iff.mp h
    exact ⟨kind, rfl, hkind⟩
  | list item ih =>
    obtain ⟨vs, ws, hvs, hws, rfl⟩ := accept_list_eq_ok_iff.mp h
    refine ⟨ws, rfl, fun w hw => ?_⟩
    obtain ⟨v, hmem, haccept⟩ := exists_of_mem_right hws hw
    exact ih hs (hv vs hvs v hmem) haccept
  | record type fields ih =>
    obtain ⟨rfl, hs⟩ := hs
    rw [fieldsLawful_iff] at hs
    obtain ⟨fs, rfl, rfl⟩ | ⟨entries, fs, hentries, hfs, rfl, _⟩ := accept_record_eq_ok_iff.mp h
    · -- A record is handed over as it is.
      exact hv.1 fs rfl
    · have hsound := (fieldsSound_iff type.fields).mp (hv.2 entries hentries)
      refine ⟨fs, rfl, (fieldsHold_iff _ fs).mpr (forall₂_imp_of_mem hfs ?_)⟩
      rintro f hf g ⟨hname, ⟨u, hu, haccept⟩ | ⟨_, hdefault⟩⟩
      · exact ⟨hname, ih f hf (hs f hf).1 (hsound f hf u hu) haccept⟩
      · exact ⟨hname, (hs f hf).2 inside _ hdefault⟩

/-- A document is sound for every shape if all documents are what `inside` says. -/
theorem sound_toValue {inside : Value → Prop} (hinside : ∀ j : Json, inside j.toValue) (s : Shape) (j : Json) :
    s.Sound inside j.toValue := by
  induction s generalizing j with
  | text | bytes | int | float | bool | moment | optionalText | option | callable => trivial
  | mapping =>
    intro entries h
    obtain ⟨ms, rfl⟩ := exists_entries_of_dictEntries? h
    exact List.forall_mem_map.mpr fun m _ => hinside m.2
  | list item ih =>
    intro items h
    obtain ⟨js, rfl⟩ := exists_items_of_listItems? h
    exact List.forall_mem_map.mpr fun k _ => ih k
  | record type fields ih =>
    refine ⟨fun fs h => ?_, fun entries h => ?_⟩
    · cases j <;> cases h
    · obtain ⟨ms, rfl⟩ := exists_entries_of_dictEntries? h
      rw [fieldsSound_iff]
      intro f hf v hv
      obtain ⟨e, he, rfl⟩ := Option.map_eq_some_iff.mp hv
      obtain ⟨m, _, rfl⟩ := List.mem_map.mp (List.mem_of_find?_eq_some he)
      exact ih f hf m.2

end Shape

/-! ## Records -/

namespace RecordType

/-- Every default passes for a value of its own field. -/
theorem lawful_shape (type : RecordType) : type.shape.Lawful := by
  refine ⟨rfl, ?_⟩
  cases type <;> simp [fields, timestampFields, transactionFields, Shape.FieldsLawful, Shape.Lawful,
    Shape.Holds, Shape.required, Shape.optional, Shape.anyInt, optionMembers, Bound.holds, nanosPerSecond]

theorem nodup_names (type : RecordType) : (type.fields.map FieldOf.name).Nodup := by
  cases type <;> decide

variable {inside : Value → Prop} {type : RecordType} {fs gs : List (Text × Value)} {v : Value}

/-- What a document is read as holds what its type says. -/
theorem holds_ofJson (hinside : ∀ j : Json, inside j.toValue) {j : Json} (h : type.ofJson j = .ok v) :
    type.shape.Holds inside v :=
  Shape.holds_accept (lawful_shape type) (Shape.sound_toValue hinside _ j) h

/-- What is made of fields holds what its type says. -/
theorem holds_make {given : List (Text × Value)}
    (hgiven : type.shape.Sound inside (.dict (Value.joinEntries (given.map fun f => (.text f.1, f.2)))))
    (h : type.make given = .ok v) : type.shape.Holds inside v :=
  Shape.holds_accept (lawful_shape type) hgiven h

/-- What is known of all fields is still known of them after one is set, if it is of all that the field could be
set to. -/
theorem forall₂_assign {name : Text} {R : FieldOf Shape → Value → Prop}
    (hfs : List.Forall₂ (fun f g => g.1 = f.name ∧ R f g.2) type.fields fs)
    (haccept : ∀ f ∈ type.fields, ∀ w, f.shape.accept .caller v = .ok w → R f w)
    (h : type.assign name v fs = .ok gs) :
    List.Forall₂ (fun f g => g.1 = f.name ∧ R f g.2) type.fields gs := by
  unfold assign at h
  split at h
  · cases h
  split at h
  · cases h
  · next f hf =>
    rw [Accepted.under_eq_ok_iff, map_eq_ok_iff] at h
    obtain ⟨w, hw, rfl⟩ := h
    have hmem := List.mem_of_find?_eq_some hf
    have hname : f.name = name := by simpa using List.find?_some hf
    rw [List.forall₂_map_right_iff]
    apply forall₂_imp_of_mem hfs
    intro d hd g hg
    by_cases hg' : g.1 = name
    · -- The field that is set is the only one of its name.
      obtain rfl : d = f := List.inj_on_of_nodup_map (nodup_names type) hd hmem (by rw [hname, ← hg', hg.1])
      rw [if_pos hg']
      exact ⟨hname.symm, haccept d hmem w hw⟩
    · rw [if_neg hg']
      exact hg

/-- A record stays what its shape says when a field of it is set. -/
theorem holds_assign {name : Text} (hv : ∀ f ∈ type.fields, f.shape.Sound inside v)
    (hfs : type.shape.Holds inside (.record type fs)) (h : type.assign name v fs = .ok gs) :
    type.shape.Holds inside (.record type gs) := by
  obtain ⟨_, heq, hfs⟩ := hfs
  cases heq
  rw [Shape.fieldsHold_iff] at hfs
  refine ⟨gs, rfl, (Shape.fieldsHold_iff type.fields gs).mpr (forall₂_assign hfs (fun f hf w hw => ?_) h)⟩
  exact Shape.holds_accept ((Shape.fieldsLawful_iff type.fields).mp (lawful_shape type).2 f hf).1 (hv f hf) hw

/-- The records of a type come from somewhere: they are made of what a caller hands over, read from a document, or
another record of the type with a field set. -/
inductive Built (inside : Value → Prop) (type : RecordType) : List (Text × Value) → Prop where
  | make {given fs : List (Text × Value)}
      (hgiven : type.shape.Sound inside (.dict (Value.joinEntries (given.map fun f => (.text f.1, f.2)))))
      (h : type.make given = .ok (.record type fs)) : Built inside type fs
  | read {j : Json} {fs : List (Text × Value)} (hinside : ∀ j : Json, inside j.toValue)
      (h : type.ofJson j = .ok (.record type fs)) : Built inside type fs
  | assign {name : Text} {v : Value} {fs gs : List (Text × Value)} (hfs : Built inside type fs)
      (hv : ∀ f ∈ type.fields, f.shape.Sound inside v) (h : type.assign name v fs = .ok gs) : Built inside type gs

/-- Wherever it comes from, a record holds what its type says. -/
theorem Built.holds (hfs : type.Built inside fs) : type.shape.Holds inside (.record type fs) := by
  induction hfs with
  | make hgiven h => exact holds_make hgiven h
  | read hinside h => exact holds_ofJson hinside h
  | assign _ hv h ih => exact holds_assign hv ih h

end RecordType

end CanonStore
