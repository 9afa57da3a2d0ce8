import CanonStore.Proofs.Base64
import CanonStore.Proofs.Schema.Conforming
import CanonStore.Proofs.Value.Same

/-!
# Records dumped and accepted again

A shape is `Storable` if what its fields hold can be told from the document that it becomes. The document
of a record of such a shape, its members in any order, is accepted as a record with the same fields
(`accept_of_same`), and that record becomes the same document (`sameDocument_of_same`).
-/

namespace CanonStore

open Json (DistinctKeys)

/-! ## Documents of equal values -/

namespace Dump

theorem key_of_text? {durable : Bool} {k : Value} {t : Text} (h : k.text? = some t) :
    key durable k = .ok t := by
  cases k with
  | text | textMember =>
    cases h
    rfl
  | _ => cases h

theorem key_eq_of_text? {durable : Bool} {k l : Value} (h : ∃ t, k.text? = some t ∧ l.text? = some t) :
    key durable k = key durable l := by
  obtain ⟨t, hk, hl⟩ := h
  rw [key_of_text? hk, key_of_text? hl]

/-- Text keys of a wellformed dictionary are distinct keys of its document. -/
theorem nodup_keys_of_entries {durable : Bool} {depth : Nat} {es : List (Value × Value)}
    (hes : es.Pairwise fun e f => Value.sameAs e.1 f.1 = false)
    (htext : ∀ e ∈ es, ∃ t, e.1.text? = some t) {ms : List (Text × Json)}
    (h : entries durable depth es = .ok ms) : (ms.map Prod.fst).Nodup := by
  refine Value.nodup_texts hes (forall₂_imp_of_mem ((entries_eq_ok_iff es ms).mp h) ?_)
  intro e he m hem
  obtain ⟨t, ht⟩ := htext e he
  rw [ht, Except.ok.inj ((key_of_text? ht).symm.trans hem.1)]

/-- Equal values become the same document. -/
theorem sameDocument_of_same {v w : Value} (h : Value.Same v w) (hv : v.Wellformed) (durable : Bool)
    (depth : Nat) : SameDocument durable depth v w := by
  induction v generalizing w durable depth with
  | null | bool | int | float | text | textMember | intMember | bytes | bytearray | moment | date
  | foreign | endless | member | entry =>
    intro shape? j hj
    cases w <;> cases h
    exact ⟨j, hj, .refl j⟩
  | list vs ih =>
    cases w with
    | list ws =>
      have hvs := (Value.itemsWellformed_iff vs).mp hv
      exact sameDocument_list (forall₂_imp_of_mem ((Value.itemsSame_iff vs ws).mp h)
        fun v hmem _ hvw => ih v hmem hvw (hvs v hmem) durable (depth - 1))
    | _ => cases h
  | tuple vs ih =>
    cases w with
    | tuple ws =>
      have hvs := (Value.itemsWellformed_iff vs).mp hv
      exact sameDocument_tuple (forall₂_imp_of_mem ((Value.itemsSame_iff vs ws).mp h)
        fun v hmem _ hvw => ih v hmem hvw (hvs v hmem) durable (depth - 1))
    | _ => cases h
  | dict es ih =>
    cases w with
    | dict fs =>
      have hes := (Value.entriesWellformed_iff es).mp hv.2
      obtain ⟨ordered, hpairs, hperm⟩ := (Value.entriesSame_iff es fs).mp h
      have htext : ∀ e ∈ es, ∃ t, e.1.text? = some t := by
        intro e he
        obtain ⟨f, _, ⟨t, ht, _⟩, _⟩ := exists_of_mem_left hpairs he
        exact ⟨t, ht⟩
      refine sameDocument_dict (forall₂_imp_of_mem hpairs fun e he f hef => ?_) hperm ?_
      · exact ⟨key_eq_of_text? hef.1, (ih e he).2 hef.2 (hes e he) durable (depth - 1)⟩
      · -- No two members share a key.
        intro ms hms m hm n hn hkey
        obtain rfl := Json.eq_of_key_eq (nodup_keys_of_entries hv.1 htext hms) hm hn hkey
        exact .refl m.2
    | _ => cases h
  | record type fs ih =>
    cases w with
    | record t gs =>
      obtain ⟨rfl, h⟩ := h
      have hfs := (Value.fieldsWellformed_iff fs).mp hv
      have hfields := forall₂_zip_left type.fields ((Value.fieldsSame_iff fs gs).mp h)
      refine sameDocument_record (forall₂_imp_of_mem hfields ?_)
      intro p hp q hpq
      have hmem := (List.of_mem_zip hp).2
      exact ⟨hpq.1, ih p.2 hmem hpq.2.2 (hfs p.2 hmem) type.isDurable (depth - 1)⟩
    | _ => cases h

/-- Durable records keep every float. -/
theorem shapedFloat_durable (shape? : Option Shape) (x : Binary64) :
    shapedFloat true shape? x = .float x := by
  unfold shapedFloat
  split
  · rfl
  · rfl

/-- A document that is the same as that of a plain value denotes the same value. -/
theorem same_toValue_of_value {v : Value} (hplain : v.Plain) (hv : v.Wellformed) {depth : Nat}
    {shape? : Option Shape} {j k : Json} (h : value true depth shape? v = .ok j) (hjk : j.Same k) :
    Value.Same v k.toValue := by
  induction v generalizing depth shape? j k with
  | null | bool | int | text =>
    cases h
    cases k <;> cases hjk
    rfl
  | float x =>
    obtain rfl : Json.float x = j := (shapedFloat_durable shape? x).symm.trans (Except.ok.inj h)
    cases k <;> cases hjk
    rfl
  | list vs ih =>
    obtain ⟨_, js, hjs, rfl⟩ := value_list_eq_ok_iff.mp h
    obtain ⟨ks, rfl⟩ := Json.exists_list_of_same hjk
    rw [Value.plain_list_iff] at hplain
    have hvs := (Value.itemsWellformed_iff vs).mp hv
    rw [items_eq_ok_iff] at hjs
    rw [Json.toValue_list]
    refine (Value.itemsSame_iff _ _).mpr (List.forall₂_map_right_iff.mpr ?_)
    exact forall₂_trans_of_mem hjs ((Json.same_list_iff js ks).mp hjk)
      fun v hmem j k hj hsame => ih v hmem (hplain v hmem) (hvs v hmem) hj hsame
  | dict es ih =>
    obtain ⟨_, ms, hms, rfl⟩ := value_dict_eq_ok_iff.mp h
    obtain ⟨ns, rfl⟩ := Json.exists_object_of_same hjk
    rw [Value.plain_dict_iff] at hplain
    have hes := (Value.entriesWellformed_iff es).mp hv.2
    have htext : ∀ e ∈ es, ∃ t, e.1.text? = some t :=
      fun e he => Option.isSome_iff_exists.mp (hplain e he).1
    rw [Json.joinMembers_of_nodup (nodup_keys_of_entries hv.1 htext hms)] at hjk
    rw [entries_eq_ok_iff] at hms
    obtain ⟨ordered, hpairs, hperm⟩ := (Json.same_object_iff ms ns).mp hjk
    rw [Json.toValue_object]
    refine (Value.entriesSame_iff _ _).mpr ⟨_, List.forall₂_map_right_iff.mpr ?_, hperm.map _⟩
    apply forall₂_trans_of_mem hms hpairs
    intro e he m n hem hmn
    obtain ⟨t, ht⟩ := htext e he
    -- A key that is a text is dumped as that text.
    have htm := Except.ok.inj ((key_of_text? ht).symm.trans hem.1)
    refine ⟨⟨t, ht, ?_⟩, (ih e he).2 (hplain e he).2 (hes e he) hem.2 hmn.2⟩
    rw [htm, hmn.1]
    rfl
  | _ => exact hplain.elim

end Dump

/-! ## Entries of a document -/

namespace Json

theorem lookup?_entries {members : List (Text × Json)} (h : (members.map Prod.fst).Nodup)
    {m : Text × Json} (hm : m ∈ members) :
    Value.lookup? m.1 (members.map (Prod.map Value.text toValue)) = some m.2.toValue := by
  induction members with
  | nil => cases hm
  | cons n rest ih =>
    rw [List.map_cons, List.nodup_cons] at h
    rw [List.map_cons, Value.lookup?, List.find?_cons]
    rcases List.mem_cons.mp hm with rfl | hm
    · simp only [Prod.map, Value.text?, decide_true, Option.map_some]
    · have hne : n.1 ≠ m.1 := fun heq => h.1 (heq ▸ List.mem_map_of_mem hm)
      simp only [Prod.map, Value.text?, Option.some.injEq, hne, decide_false]
      exact ih h.2 hm

/-- There is no entry under a key exactly if no member has it. -/
theorem lookup?_entries_eq_none_iff {key : Text} {members : List (Text × Json)} :
    Value.lookup? key (members.map (Prod.map Value.text toValue)) = none ↔ ∀ m ∈ members, m.1 ≠ key := by
  simp [Value.lookup?, Value.text?, Prod.map]

/-- Entries of distinct text keys differ as keys. -/
theorem pairwise_entries {members : List (Text × Json)} (h : (members.map Prod.fst).Nodup) :
    (members.map (Prod.map Value.text toValue)).Pairwise fun e f => Value.sameAs e.1 f.1 = false := by
  rw [List.pairwise_map]
  refine (List.pairwise_map.mp h).imp fun {m n} hne => ?_
  exact (Value.sameAs_of_text? rfl rfl).trans (decide_eq_false hne)

end Json

/-! ## Accepting a document again -/

namespace Shape

mutual

/-- What a field of the shape holds can be told from its document. `durable` says how the record around
it is dumped; records have the fields of their type. -/
def Storable (durable : Bool) : Shape → Prop
  | .text | .int _ | .float | .bool | .optionalText => True
  | .bytes | .mapping => durable = true
  | .list item => Storable durable item
  | .record type fields => fields = type.fields ∧ FieldsStorable type.isDurable fields
  | .moment | .option | .callable => False
termination_by structural s => s

/-- All fields are storable. -/
def FieldsStorable (durable : Bool) : List (FieldOf Shape) → Prop
  | [] => True
  | ⟨_, _, shape, _⟩ :: rest => Storable durable shape ∧ FieldsStorable durable rest
termination_by structural fields => fields

end

theorem fieldsStorable_iff {durable : Bool} (fields : List (FieldOf Shape)) :
    FieldsStorable durable fields ↔ ∀ f ∈ fields, Storable durable f.shape :=
  iff_forall_mem_of_cons trivial (fun _ _ => Iff.rfl) fields

/-- A document of which all parts can be accepted: no surrogates, no repeated keys. -/
def Clean (j : Json) : Prop := j.hasSurrogate = false ∧ DistinctKeys j

theorem clean_list_iff (items : List Json) : Clean (.list items) ↔ ∀ j ∈ items, Clean j := by
  rw [Clean, Json.hasSurrogate_list_eq_false, Json.distinctKeys_list_iff]
  exact ⟨fun h j hj => ⟨h.1 j hj, h.2 j hj⟩, fun h => ⟨fun j hj => (h j hj).1, fun j hj => (h j hj).2⟩⟩

theorem clean_object_iff (members : List (Text × Json)) :
    Clean (.object members) ↔ (members.map Prod.fst).Nodup ∧
      ∀ m ∈ members, m.1.any CodePoint.isSurrogate = false ∧ Clean m.2 := by
  rw [Clean, Json.hasSurrogate_object_eq_false, Json.distinctKeys_object_iff]
  constructor
  · rintro ⟨hs, hkeys, hd⟩
    exact ⟨hkeys, fun m hm => ⟨(hs m hm).1, (hs m hm).2, hd m hm⟩⟩
  · rintro ⟨hkeys, h⟩
    exact ⟨fun m hm => ⟨(h m hm).1, (h m hm).2.1⟩, hkeys, fun m hm => (h m hm).2.2⟩

/-- A clean object is accepted as a mapping as it is. -/
theorem accept_mapping (origin : Origin) {members : List (Text × Json)} (h : Clean (.object members)) :
    Shape.accept origin .mapping (Json.object members).toValue = .ok (Json.object members).toValue := by
  obtain ⟨hkeys, hmembers⟩ := (clean_object_iff members).mp h
  rw [Json.toValue_object]
  refine accept_dict origin (List.forall_mem_map.mpr fun m hm => ?_) (Json.pairwise_entries hkeys)
  exact ⟨m.1, rfl, Scalar.whole_eq_ok_iff.mpr ⟨(hmembers m hm).1, rfl⟩⟩

/-- There are no extra problems exactly if every entry is under a label. -/
theorem extraProblems_eq_nil_iff {labels : List Text} {members : List (Text × Json)} :
    extraProblems labels (members.map (Prod.map Value.text Json.toValue)) = [] ↔ ∀ m ∈ members, m.1 ∈ labels := by
  rw [extraProblems, List.filterMap_map, List.filterMap_eq_nil_iff]
  refine forall₂_congr fun m _ => ?_
  show (if labels.contains m.1 then none else some _) = none ↔ _
  simp

/-- Fields that are accepted from their entries, one by one, as the values that they were. -/
theorem exists_accepted_fields {origin : Origin} {entries : List (Value × Value)}
    {fields : List (FieldOf Shape)} {fs : List (Text × Value)}
    (hnames : List.Forall₂ (fun f g => g.1 = f.name) fields fs)
    (h : ∀ p ∈ fields.zip fs, ∃ u w, Value.lookup? p.1.label entries = some u ∧
      p.1.shape.accept origin u = .ok w ∧ Value.Same p.2.2 w) :
    ∃ gs, List.Forall₂ (fun f g => g.1 = f.name ∧ ∃ u, Value.lookup? f.label entries = some u ∧
      f.shape.accept origin u = .ok g.2) fields gs ∧ Value.FieldsSame fs gs := by
  obtain ⟨hlength, hnames⟩ := List.forall₂_iff_zip.mp hnames
  -- The field and its value come as a pair, and each pair gives one accepted field.
  have hparts : ∀ p ∈ fields.zip fs, ∃ g : Text × Value,
      (g.1 = p.1.name ∧ ∃ u, Value.lookup? p.1.label entries = some u ∧
        p.1.shape.accept origin u = .ok g.2) ∧ p.2.1 = g.1 ∧ Value.Same p.2.2 g.2 := by
    intro p hp
    obtain ⟨u, w, hu, haccept, hsame⟩ := h p hp
    exact ⟨(p.1.name, w), ⟨rfl, u, hu, haccept⟩, hnames hp, hsame⟩
  obtain ⟨gs, hgs⟩ := exists_forall₂_of_forall hparts
  refine ⟨gs, ?_, (Value.fieldsSame_iff fs gs).mpr ?_⟩
  · rw [← List.map_fst_zip hlength.le, List.forall₂_map_left_iff]
    exact hgs.imp fun _ _ hg => hg.1
  · rw [← List.map_snd_zip hlength.ge, List.forall₂_map_left_iff]
    exact hgs.imp fun _ _ hg => hg.2

/-- An object is accepted as a record if its members are accepted as the fields. -/
theorem accept_record {type : RecordType} {fields : List (FieldOf Shape)} {members : List (Text × Json)}
    {gs : List (Text × Value)}
    (h : List.Forall₂ (fun f g => g.1 = f.name ∧
      ∃ u, Value.lookup? f.label (members.map (Prod.map Value.text Json.toValue)) = some u ∧
        f.shape.accept .document u = .ok g.2) fields gs)
    (hkeys : ∀ m ∈ members, m.1 ∈ fields.map FieldOf.label) :
    Shape.accept .document (.record type fields) (Json.object members).toValue =
      .ok (.record type gs) := by
  rw [Json.toValue_object, accept_record_eq_ok_iff]
  exact .inr ⟨_, gs, rfl, h.imp fun _ _ ⟨hname, hu⟩ => ⟨hname, .inl hu⟩, rfl,
    fun _ => extraProblems_eq_nil_iff.mpr hkeys⟩

/-! ## Each shape -/

/-- The document of a plain value of the shape, its members in any order, is accepted as the same value. -/
def AcceptedBack (durable : Bool) (s : Shape) : Prop :=
  ∀ ⦃v depth j k⦄, s.Holds Value.Plain v → v.Wellformed →
    Dump.value durable depth (some s) v = .ok j → j.Same k → Clean k →
    ∃ w, s.accept .document k.toValue = .ok w ∧ Value.Same v w

theorem acceptedBack_mapping : AcceptedBack true .mapping := by
  rintro v depth j k ⟨es, rfl, hes⟩ hw hj hjk hk
  have hplain : Value.Plain (.dict es) := by
    rw [Value.plain_dict_iff]
    intro e he
    obtain ⟨⟨t, ht⟩, hvalue⟩ := hes e he
    exact ⟨by rw [ht]; rfl, hvalue⟩
  have hsame := Dump.same_toValue_of_value hplain hw hj hjk
  refine ⟨k.toValue, ?_, hsame⟩
  obtain ⟨_, ms, _, rfl⟩ := Dump.value_dict_eq_ok_iff.mp hj
  obtain ⟨ns, rfl⟩ := Json.exists_object_of_same hjk
  exact accept_mapping .document hk

theorem AcceptedBack.list {durable : Bool} {item : Shape} (h : AcceptedBack durable item) :
    AcceptedBack durable (.list item) := by
  rintro v depth j k ⟨vs, rfl, hvs⟩ hw hj hjk hk
  obtain ⟨_, js, hjs, rfl⟩ := Dump.value_list_eq_ok_iff.mp hj
  obtain ⟨ks, rfl⟩ := Json.exists_list_of_same hjk
  rw [Dump.items_eq_ok_iff] at hjs
  rw [Json.same_list_iff] at hjk
  rw [clean_list_iff] at hk
  have hwell := (Value.itemsWellformed_iff vs).mp hw
  -- Each item is accepted from the document in its place.
  have hitems : List.Forall₂
      (fun v k => ∃ w, Value.Same v w ∧ item.accept .document k.toValue = .ok w) vs ks := by
    apply forall₂_trans_of_mem hjs (forall₂_and_mem hjk)
    intro v hmem j k hvj hjk
    obtain ⟨w, haccept, hsame⟩ := h (hvs v hmem) (hwell v hmem) hvj hjk.1 (hk k hjk.2)
    exact ⟨w, hsame, haccept⟩
  obtain ⟨ws, hsame, haccept⟩ := exists_forall₂ hitems
  refine ⟨.list ws, ?_, (Value.itemsSame_iff vs ws).mpr hsame⟩
  rw [Json.toValue_list, accept_list_eq_ok_iff]
  exact ⟨_, ws, rfl, List.forall₂_map_left_iff.mpr haccept, rfl⟩

/-- The members of the document of a record, in the order of its fields and each with the field that it
comes from, whatever their order in the document. -/
theorem exists_ordered_members {type : RecordType} {depth : Nat} {fs : List (Text × Value)}
    {ms ns : List (Text × Json)} (hms : Dump.fields type.isDurable depth type.fields fs = .ok ms)
    (hsame : (Json.object ms).Same (.object ns)) :
    ∃ ordered, ordered.Perm ns ∧ List.Forall₂ (fun p n => p.1.label = n.1 ∧ n ∈ ns ∧
      ∃ j, Dump.value type.isDurable depth (some p.1.shape) p.2.2 = .ok j ∧ j.Same n.2)
      (type.fields.zip fs) ordered := by
  obtain ⟨ordered, hpairs, hperm⟩ := (Json.same_object_iff ms ns).mp hsame
  refine ⟨ordered, hperm, ?_⟩
  apply forall₂_trans_of_mem ((Dump.fields_eq_ok_iff type.fields fs ms).mp hms) (forall₂_and_mem hpairs)
  intro p _ m n hpm hmn
  exact ⟨hpm.1.trans hmn.1.1, hperm.subset hmn.2, m.2, hpm.2, hmn.1.2⟩

theorem AcceptedBack.record {type : RecordType}
    (h : ∀ f ∈ type.fields, AcceptedBack type.isDurable f.shape) {durable : Bool} :
    AcceptedBack durable (.record type type.fields) := by
  rintro v depth j k ⟨fs, rfl, hfs⟩ hw hj hjk hk
  obtain ⟨_, ms, hms, rfl⟩ := Dump.value_record_eq_ok_iff.mp hj
  obtain ⟨ns, rfl⟩ := Json.exists_object_of_same hjk
  obtain ⟨ordered, hperm, hmembers⟩ := exists_ordered_members hms hjk
  obtain ⟨hlength, hfs⟩ := List.forall₂_iff_zip.mp ((fieldsHold_iff type.fields fs).mp hfs)
  obtain ⟨hkeys, hclean⟩ := (clean_object_iff ns).mp hk
  have hwell := (Value.fieldsWellformed_iff fs).mp hw
  -- A field is looked up by its label, so it finds its own member wherever that stands.
  have hfields : ∀ p ∈ type.fields.zip fs, ∃ u w,
      Value.lookup? p.1.label (ns.map (Prod.map Value.text Json.toValue)) = some u ∧
        p.1.shape.accept .document u = .ok w ∧ Value.Same p.2.2 w := by
    intro p hp
    obtain ⟨n, _, hlabel, hn, j, hj, hsame⟩ := exists_of_mem_left hmembers hp
    obtain ⟨hfield, hvalue⟩ := List.of_mem_zip hp
    obtain ⟨w, haccept, hvw⟩ := h p.1 hfield (hfs hp).2 (hwell p.2 hvalue) hj hsame (hclean n hn).2
    refine ⟨n.2.toValue, w, ?_, haccept, hvw⟩
    rw [hlabel]
    exact Json.lookup?_entries hkeys hn
  -- No member is left over, since each of them comes from a field.
  have hlabels : ∀ n ∈ ns, n.1 ∈ type.fields.map FieldOf.label := by
    intro n hn
    obtain ⟨p, hp, hlabel, _⟩ := exists_of_mem_right hmembers (hperm.symm.subset hn)
    rw [← hlabel]
    exact List.mem_map_of_mem (List.of_mem_zip hp).1
  have hnames : List.Forall₂ (fun f g => g.1 = f.name) type.fields fs :=
    List.forall₂_iff_zip.mpr ⟨hlength, fun hp => (hfs hp).1⟩
  obtain ⟨gs, hgs, hsame⟩ := exists_accepted_fields hnames hfields
  exact ⟨.record type gs, accept_record hgs hlabels, rfl, hsame⟩

/-- The document of what a field holds, its members in any order, is accepted as the same value. -/
theorem accept_of_same {s : Shape} {durable : Bool} (hs : s.Storable durable) {v : Value}
    (hv : s.Holds Value.Plain v) (hw : v.Wellformed) {depth : Nat} {j k : Json}
    (hj : Dump.value durable depth (some s) v = .ok j) (hjk : j.Same k) (hk : Clean k) :
    ∃ w, s.accept .document k.toValue = .ok w ∧ Value.Same v w := by
  suffices h : AcceptedBack durable s from h hv hw hj hjk hk
  clear hv hw hj hjk hk
  -- By induction on the shape. A leaf is the same as its document only if that is the leaf itself.
  induction s generalizing durable with
  | text =>
    rintro v depth j k ⟨t, rfl⟩ - hj hjk hk
    cases hj
    cases k <;> cases hjk
    have ht := (Json.hasSurrogate_text_eq_false t).mp hk.1
    exact ⟨.text t, Accepted.scalar_eq_ok_iff.mpr ⟨t, Scalar.whole_eq_ok_iff.mpr ⟨ht, rfl⟩, rfl⟩, rfl⟩
  | bytes =>
    rintro v depth j k ⟨b, rfl⟩ - hj hjk -
    obtain rfl : durable = true := hs
    cases hj
    cases k <;> cases hjk
    refine ⟨.bytes b, ?_, rfl⟩
    show Accepted.scalar .bytes (Scalar.bytes (.text _)) = _
    rw [Scalar.bytes, Base64.decodeAny?_encodeWith]
    rfl
  | int bounds =>
    rintro v depth j k ⟨n, rfl, hbounds⟩ - hj hjk -
    cases hj
    cases k <;> cases hjk
    exact ⟨.int n, accept_int_eq_ok_iff.mpr ⟨n, rfl, hbounds, rfl⟩, rfl⟩
  | float =>
    rintro v depth j k ⟨x, rfl⟩ - hj hjk -
    cases hj
    cases k <;> cases hjk
    exact ⟨.float x, rfl, rfl⟩
  | bool =>
    rintro v depth j k ⟨b, rfl⟩ - hj hjk -
    cases hj
    cases k <;> cases hjk
    exact ⟨.bool b, rfl, rfl⟩
  | moment | option | callable => exact hs.elim
  | mapping =>
    obtain rfl : durable = true := hs
    exact acceptedBack_mapping
  | optionalText =>
    rintro v depth j k (rfl | ⟨t, rfl⟩) - hj hjk hk
    · cases hj
      cases k <;> cases hjk
      exact ⟨.null, rfl, rfl⟩
    · cases hj
      cases k <;> cases hjk
      have ht := (Json.hasSurrogate_text_eq_false t).mp hk.1
      have haccept := Scalar.whole_eq_ok_iff.mpr ⟨ht, rfl⟩
      exact ⟨.text t, accept_optionalText_eq_ok_iff.mpr (.inr ⟨t, haccept, rfl⟩), rfl⟩
  | list item ih => exact (ih hs).list
  | record type fields ih =>
    obtain ⟨rfl, hs⟩ := hs
    exact .record fun f hf => ih f hf ((fieldsStorable_iff type.fields).mp hs f hf)

end Shape

end CanonStore
