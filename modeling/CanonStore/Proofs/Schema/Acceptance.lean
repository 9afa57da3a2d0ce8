import CanonStore.Proofs.Parts
import CanonStore.Proofs.Value.Tree
import CanonStore.Schema.Accept

/-!
# Acceptance

When a value is accepted, and as what. There is one lemma for each shape, so that nothing else has to open
`Shape.accept`; texts, octets, floats, truth values and moments are what their conversions give
(`Accepted.scalar_eq_ok_iff`).
-/

namespace CanonStore

/-! ## Gathering -/

namespace Accepted

theorem gather_eq_ok_iff {α : Type} (as : List (Accepted α)) (xs : List α) :
    gather as = .ok xs ↔ List.Forall₂ (fun a x => a = .ok x) as xs := by
  induction as generalizing xs with
  | nil => rw [gather, List.forall₂_nil_left_iff, Except.ok.injEq, eq_comm]
  | cons a rest ih =>
    rw [List.forall₂_cons_left_iff]
    cases a with
    | ok x =>
      rw [gather, map_eq_ok_iff]
      constructor
      · rintro ⟨ys, hys, rfl⟩
        exact ⟨x, ys, rfl, (ih ys).mp hys, rfl⟩
      · rintro ⟨y, ys, hy, hys, rfl⟩
        exact ⟨ys, (ih ys).mpr hys, by rw [Except.ok.inj hy]⟩
    -- All problems are gathered, but a single part with problems is enough to have no result.
    | error ps =>
      rw [gather]
      constructor
      · intro h
        cases hg : gather rest <;> rw [hg] at h <;> cases h
      · rintro ⟨y, ys, hy, _⟩
        cases hy

theorem under_eq_ok_iff {α : Type} {step : Step} {a : Accepted α} {x : α} :
    a.under step = .ok x ↔ a = .ok x := mapError_eq_ok_iff

theorem numbered_eq_ok_iff {α : Type} (index : Nat) (as : List (Accepted α)) (xs : List α) :
    gather (numbered index as) = .ok xs ↔ List.Forall₂ (fun a x => a = .ok x) as xs := by
  rw [gather_eq_ok_iff]
  induction as generalizing index xs with
  | nil => exact Iff.rfl
  | cons a rest ih =>
    rw [numbered, List.forall₂_cons_left_iff, List.forall₂_cons_left_iff]
    simp only [ih, under_eq_ok_iff]

theorem also_eq_ok_iff {α : Type} {a : Accepted α} {later : List Problem} {x : α} :
    a.also later = .ok x ↔ a = .ok x ∧ later = [] := by
  cases later with
  | nil => simp [also]
  | cons p ps => cases a <;> simp [also]

theorem scalar_eq_ok_iff {α : Type} {wrap : α → Value} {x : Except ProblemKind α} {v : Value} :
    scalar wrap x = .ok v ↔ ∃ y, x = .ok y ∧ wrap y = v := by
  cases x with
  | error kind => simp [scalar, fail]
  | ok y => simp [scalar]

end Accepted

/-! ## What each shape accepts -/

/-- A text is accepted as it is, if it holds no surrogate. -/
theorem Scalar.whole_eq_ok_iff {t u : Text} : whole t = .ok u ↔ t.any CodePoint.isSurrogate = false ∧ t = u := by
  rw [whole]
  cases t.any CodePoint.isSurrogate <;> simp

namespace Shape

variable {origin : Origin} {v w : Value}

theorem broken?_eq_none_iff {n : Int} {bounds : List Bound} :
    Bound.broken? n bounds = none ↔ ∀ b ∈ bounds, b.holds n := by
  simp [Bound.broken?]

theorem accept_int_eq_ok_iff {bounds : List Bound} :
    accept origin (.int bounds) v = .ok w ↔
      ∃ n, Scalar.int v = .ok n ∧ (∀ b ∈ bounds, b.holds n) ∧ .int n = w := by
  rw [accept]
  cases Scalar.int v with
  | error kind => simp [Accepted.fail]
  | ok n =>
    simp only [← broken?_eq_none_iff, Except.ok.injEq, exists_eq_left']
    cases Bound.broken? n bounds <;> simp [Accepted.fail]

/-- An entry of a mapping is accepted if its key is, and keeps its value. -/
theorem acceptEntry_eq_ok_iff {e f : Value × Value} :
    acceptEntry e = .ok f ↔ ∃ t, Scalar.text e.1 = .ok t ∧ (.text t, e.2) = f := by
  rw [acceptEntry]
  cases Scalar.text e.1 <;> simp [Accepted.fail, Accepted.under, Except.mapError]

theorem accept_mapping_eq_ok_iff :
    accept origin .mapping v = .ok w ↔ ∃ entries es, v.dictEntries? = some entries ∧
      List.Forall₂ (fun e f => acceptEntry e = .ok f) entries es ∧ .dict (Value.joinEntries es) = w := by
  rw [accept]
  cases v.dictEntries? with
  | none => simp [Accepted.fail]
  | some entries =>
    simp only [map_eq_ok_iff, Accepted.gather_eq_ok_iff, List.forall₂_map_left_iff, Option.some.injEq,
      exists_and_left, exists_eq_left']

/-- A dictionary is accepted as it is if its keys are texts that are accepted and differ from one another. -/
theorem accept_dict (origin : Origin) {entries : List (Value × Value)}
    (hkeys : ∀ e ∈ entries, ∃ t, e.1 = .text t ∧ Scalar.text (.text t) = .ok t)
    (hdistinct : entries.Pairwise fun e f => Value.sameAs e.1 f.1 = false) :
    accept origin .mapping (.dict entries) = .ok (.dict entries) := by
  refine accept_mapping_eq_ok_iff.mpr ⟨entries, entries, rfl, List.forall₂_same.mpr fun e he => ?_, ?_⟩
  · obtain ⟨t, hkey, ht⟩ := hkeys e he
    exact acceptEntry_eq_ok_iff.mpr ⟨t, by rw [hkey, ht], Prod.ext hkey.symm rfl⟩
  · rw [Value.joinEntries_of_pairwise hdistinct]

theorem accept_optionalText_eq_ok_iff :
    accept origin .optionalText v = .ok w ↔
      v = .null ∧ .null = w ∨ ∃ t, Scalar.text v = .ok t ∧ .text t = w := by
  rw [accept.eq_def]
  cases v with
  | null => simp [Scalar.text]
  | _ => simp [Accepted.scalar_eq_ok_iff]

theorem accept_option_eq_ok_iff :
    accept origin .option v = .ok w ↔ ∃ t, v.text? = some t ∧ optionOfText? t = some w := by
  rw [accept]
  cases v.text? with
  | none => simp [Accepted.fail]
  | some t => cases h : optionOfText? t <;> simp [h, Accepted.fail]

theorem exists_member_of_optionOfText? {t : Text} (h : optionOfText? t = some w) :
    ∃ o ∈ optionMembers, o.2 = t ∧ .textMember o.1 o.2 = w := by
  obtain ⟨o, ho, hw⟩ := Option.map_eq_some_iff.mp h
  exact ⟨o, List.mem_of_find?_eq_some ho, by simpa using List.find?_some ho, hw⟩

theorem accept_callable_eq_ok_iff :
    accept origin .callable v = .ok w ↔ ∃ kind, v = .foreign kind ∧ kind.isCallable ∧ .foreign kind = w := by
  rw [accept.eq_def]
  cases v with
  | foreign kind => cases hkind : kind.isCallable <;> simp [hkind, Accepted.fail]
  | _ => simp [Accepted.fail]

theorem accept_list_eq_ok_iff {item : Shape} :
    accept origin (.list item) v = .ok w ↔ ∃ vs ws, v.listItems? = some vs ∧
      List.Forall₂ (fun v w => item.accept origin v = .ok w) vs ws ∧ .list ws = w := by
  rw [accept]
  cases v.listItems? with
  | none => simp [Accepted.fail]
  | some vs =>
    simp only [map_eq_ok_iff, Accepted.numbered_eq_ok_iff, List.forall₂_map_left_iff, Option.some.injEq,
      exists_and_left, exists_eq_left']

/-- What a field takes from entries: what its shape makes of the entry under its label, or else its default. -/
def Takes (origin : Origin) (entries : List (Value × Value)) (f : FieldOf Shape) (v : Value) : Prop :=
  (∃ u, Value.lookup? f.label entries = some u ∧ f.shape.accept origin u = .ok v) ∨
    Value.lookup? f.label entries = none ∧ f.default? = some v

theorem acceptFields_eq_ok_iff {entries : List (Value × Value)} {fields : List (FieldOf Shape)}
    {fs : List (Text × Value)} :
    Accepted.gather (acceptFields origin entries fields) = .ok fs ↔
      List.Forall₂ (fun f g => g.1 = f.name ∧ Takes origin entries f g.2) fields fs := by
  rw [Accepted.gather_eq_ok_iff]
  induction fields generalizing fs with
  | nil => rw [acceptFields, List.forall₂_nil_left_iff, List.forall₂_nil_left_iff]
  | cons f rest ih =>
    obtain ⟨name, label, shape, default?⟩ := f
    rw [acceptFields.eq_def]
    simp only [List.forall₂_cons_left_iff, ih, Takes]
    refine exists_congr fun g => exists_congr fun gs => and_congr_left fun _ => ?_
    obtain ⟨key, v⟩ := g
    -- A field is accepted from its entry, or it takes its default, or it is missing.
    cases Value.lookup? label entries with
    | some u =>
      simp only [Accepted.under_eq_ok_iff, map_eq_ok_iff, Prod.mk.injEq, Option.some.injEq, exists_eq_left',
        reduceCtorEq, false_and, or_false]
      exact ⟨fun ⟨_, hw, hname, hv⟩ => ⟨hname.symm, hv ▸ hw⟩, fun ⟨hname, hv⟩ => ⟨v, hv, hname.symm, rfl⟩⟩
    | none => cases default? <;> simp [Accepted.under, Except.mapError, Accepted.fail, eq_comm]

/-- A record is accepted as it is if it is of the type. Any other value is read as entries, from which all fields
take a value; if the type is closed, no entry is left over. -/
theorem accept_record_eq_ok_iff {type : RecordType} {fields : List (FieldOf Shape)} :
    accept origin (.record type fields) v = .ok w ↔
      (∃ fs, v = .record type fs ∧ .record type fs = w) ∨
        ∃ entries fs, v.dictEntries? = some entries ∧
          List.Forall₂ (fun f g => g.1 = f.name ∧ Takes origin entries f g.2) fields fs ∧ .record type fs = w ∧
          (type.isClosed → extraProblems (fields.map FieldOf.label) entries = []) := by
  have hentries : ∀ entries, Accepted.also ((Accepted.gather (acceptFields origin entries fields)).map
        (Value.record type)) (if type.isClosed then extraProblems (fields.map FieldOf.label) entries else []) = .ok w ↔
      ∃ fs, List.Forall₂ (fun f g => g.1 = f.name ∧ Takes origin entries f g.2) fields fs ∧ .record type fs = w ∧
        (type.isClosed → extraProblems (fields.map FieldOf.label) entries = []) := by
    intro entries
    have hextra : (if type.isClosed then extraProblems (fields.map FieldOf.label) entries else []) = [] ↔
        (type.isClosed → extraProblems (fields.map FieldOf.label) entries = []) := by
      cases type.isClosed <;> simp
    rw [Accepted.also_eq_ok_iff, map_eq_ok_iff, hextra, ← exists_and_right]
    simp only [acceptFields_eq_ok_iff, and_assoc]
  -- A record of the type is taken as it is; every dictionary is read field by field, one that holds itself
  -- as well.
  rw [accept.eq_def]
  cases v with
  | record t fs =>
    obtain rfl | h := eq_or_ne t type
    · simp [Value.dictEntries?]
    · simp [Value.dictEntries?, Accepted.fail, h]
  | dict entries => simp [Value.dictEntries?, hentries]
  | endless shape => cases shape <;> simp [Value.dictEntries?, hentries, Accepted.fail]
  | _ => simp [Value.dictEntries?, Accepted.fail]

end Shape

end CanonStore
