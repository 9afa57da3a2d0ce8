import CanonStore.Schema.Dump
import CanonStore.Proofs.Json.Joining
import CanonStore.Proofs.Value.Tree

/-!
# Documents of records

A list of parts is dumped part by part: `items_eq_ok_iff` and its companions say so for each of the four
lists that a value can hold. From them follows `distinctKeys_of_value`: the document of a wellformed
value repeats no key, whatever becomes of keys that are no texts.
-/

namespace CanonStore.Dump

/-! ## Part by part -/

section Parts

variable {durable : Bool} {depth : Nat} {shape? : Option Shape}

/-- Items are dumped one by one. -/
theorem items_eq_ok_iff (vs : List Value) (js : List Json) :
    items durable depth shape? vs = .ok js ↔
      List.Forall₂ (fun v j => value durable depth shape? v = .ok j) vs js := by
  apply iff_forall₂_of_cons (P := fun vs js => items durable depth shape? vs = .ok js)
  · exact fun _ => ok_eq_ok_iff
  · intro v rest js
    refine walk_eq_ok_iff.trans ?_
    simp only [exists_eq_right']

/-- Entries are dumped one by one, keys and values. -/
theorem entries_eq_ok_iff (es : List (Value × Value)) (ms : List (Text × Json)) :
    entries durable depth es = .ok ms ↔
      List.Forall₂ (fun e m => key durable e.1 = .ok m.1 ∧ value durable depth none e.2 = .ok m.2) es ms := by
  apply iff_forall₂_of_cons (P := fun es ms => entries durable depth es = .ok ms)
  · exact fun _ => ok_eq_ok_iff
  · intro e rest ms
    refine bind_eq_ok_iff.trans ?_
    constructor
    · rintro ⟨t, ht, h⟩
      obtain ⟨m, ms', rfl, ⟨j, hj, rfl⟩, hrest⟩ := walk_eq_ok_iff.mp h
      exact ⟨(t, j), ms', rfl, ⟨ht, hj⟩, hrest⟩
    · rintro ⟨m, ms', rfl, ⟨ht, hj⟩, hrest⟩
      exact ⟨m.1, ht, walk_eq_ok_iff.mpr ⟨m, ms', rfl, ⟨m.2, hj, rfl⟩, hrest⟩⟩

theorem openFields_eq_ok_iff (fs : List (Text × Value)) (ms : List (Text × Json)) :
    openFields durable depth fs = .ok ms ↔
      List.Forall₂ (fun f m => f.1 = m.1 ∧ value durable depth none f.2 = .ok m.2) fs ms := by
  apply iff_forall₂_of_cons (P := fun fs ms => openFields durable depth fs = .ok ms)
  · exact fun _ => ok_eq_ok_iff
  · intro f rest ms
    refine walk_eq_ok_iff.trans ?_
    constructor
    · rintro ⟨m, ms', rfl, ⟨j, hj, rfl⟩, hrest⟩
      exact ⟨(f.1, j), ms', rfl, ⟨rfl, hj⟩, hrest⟩
    · rintro ⟨⟨_, j⟩, ms', rfl, ⟨rfl, hj⟩, hrest⟩
      exact ⟨(f.1, j), ms', rfl, ⟨j, hj, rfl⟩, hrest⟩

/-- Declared fields are paired with those of the record by their places. -/
theorem fields_eq_ok_iff (declared : List (FieldOf Shape)) (fs : List (Text × Value))
    (ms : List (Text × Json)) :
    fields durable depth declared fs = .ok ms ↔
      List.Forall₂ (fun p m => p.1.label = m.1 ∧ value durable depth (some p.1.shape) p.2.2 = .ok m.2)
        (declared.zip fs) ms := by
  -- Both lists are walked at once and the walk ends with the shorter one, as it does in a zip.
  induction fs generalizing declared ms with
  | nil =>
    rw [List.zip_nil_right, List.forall₂_nil_left_iff]
    cases declared <;> exact ok_eq_ok_iff
  | cons f rest ih =>
    cases declared with
    | nil =>
      rw [List.zip_nil_left, List.forall₂_nil_left_iff]
      exact ok_eq_ok_iff
    | cons d declared =>
      rw [List.zip_cons_cons, List.forall₂_cons_left_iff]
      refine walk_eq_ok_iff.trans ?_
      constructor
      · rintro ⟨m, ms', rfl, ⟨j, hj, rfl⟩, hrest⟩
        exact ⟨(d.label, j), ms', ⟨rfl, hj⟩, (ih declared ms').mp hrest, rfl⟩
      · rintro ⟨⟨_, j⟩, ms', ⟨rfl, hj⟩, hrest, rfl⟩
        exact ⟨(d.label, j), ms', rfl, ⟨j, hj, rfl⟩, (ih declared ms').mpr hrest⟩

/-! ## Containers -/

/-- A list is dumped if there is depth for it and each of its items is. -/
theorem value_list_eq_ok_iff {vs : List Value} {j : Json} :
    value durable depth shape? (.list vs) = .ok j ↔
      depth ≠ 0 ∧ ∃ js, items durable (depth - 1) (itemShape? shape?) vs = .ok js ∧ j = .list js :=
  guarded_eq_ok_iff

theorem value_tuple (vs : List Value) :
    value durable depth shape? (.tuple vs) = value durable depth shape? (.list vs) := rfl

/-- A dictionary is dumped if there is depth for it and each of its entries is; a later one of the same key wins. -/
theorem value_dict_eq_ok_iff {es : List (Value × Value)} {j : Json} :
    value durable depth shape? (.dict es) = .ok j ↔
      depth ≠ 0 ∧ ∃ ms, entries durable (depth - 1) es = .ok ms ∧ j = .object (Json.joinMembers ms) :=
  guarded_eq_ok_iff

/-- A record is dumped if there is depth for it and each of its fields is, by the rules of its own type. -/
theorem value_record_eq_ok_iff {type : RecordType} {fs : List (Text × Value)} {j : Json} :
    value durable depth shape? (.record type fs) = .ok j ↔
      depth ≠ 0 ∧ ∃ ms, fields type.isDurable (depth - 1) type.fields fs = .ok ms ∧ j = .object ms :=
  guarded_eq_ok_iff

/-- An entry of an open type is dumped if there is depth for it and each of its fields is. -/
theorem value_entry_eq_ok_iff {type : EntryType} {fs : List (Text × Value)} {j : Json} :
    value durable depth shape? (.entry type fs) = .ok j ↔
      isOpen type = true ∧ depth ≠ 0 ∧ ∃ ms, openFields durable (depth - 1) fs = .ok ms ∧ j = .object ms := by
  show (if !isOpen type then _ else if depth = 0 then _ else _) = Except.ok j ↔ _
  cases isOpen type with
  | false => simp
  | true =>
    rw [eq_self, true_and]
    exact guarded_eq_ok_iff

end Parts

/-! ## Parts that become the same documents -/

/-- Two values become the same document within `depth` containers, if the first becomes one at all. -/
def SameDocument (durable : Bool) (depth : Nat) (v w : Value) : Prop :=
  ∀ ⦃shape? : Option Shape⦄ ⦃j : Json⦄, value durable depth shape? v = .ok j →
    ∃ k, value durable depth shape? w = .ok k ∧ j.Same k

section SameParts

variable {durable : Bool} {depth : Nat}

theorem sameDocument_list {vs ws : List Value} (h : List.Forall₂ (SameDocument durable (depth - 1)) vs ws) :
    SameDocument durable depth (.list vs) (.list ws) := by
  intro shape? j hj
  obtain ⟨hd, js, hjs, rfl⟩ := value_list_eq_ok_iff.mp hj
  rw [items_eq_ok_iff] at hjs
  obtain ⟨ks, hks, hsame⟩ := forall₂_transport h hjs fun _ _ _ _ hvw hj => hvw hj
  refine ⟨.list ks, value_list_eq_ok_iff.mpr ⟨hd, ks, (items_eq_ok_iff ws ks).mpr hks, rfl⟩, ?_⟩
  exact (Json.same_list_iff js ks).mpr hsame

theorem sameDocument_tuple {vs ws : List Value} (h : List.Forall₂ (SameDocument durable (depth - 1)) vs ws) :
    SameDocument durable depth (.tuple vs) (.tuple ws) := by
  intro shape? j hj
  rw [value_tuple] at hj ⊢
  exact sameDocument_list h hj

/-- Entries that become members of one key have the same document. -/
def Agreeing (durable : Bool) (depth : Nat) (es : List (Value × Value)) : Prop :=
  ∀ ms, entries durable depth es = .ok ms → ∀ m ∈ ms, ∀ n ∈ ms, m.1 = n.1 → m.2.Same n.2

/-- The order of entries that agree does not show. -/
theorem sameDocument_dict {es ordered fs : List (Value × Value)}
    (h : List.Forall₂ (fun e f => key durable e.1 = key durable f.1 ∧
      SameDocument durable (depth - 1) e.2 f.2) es ordered) (hperm : ordered.Perm fs)
    (hagree : Agreeing durable (depth - 1) es) : SameDocument durable depth (.dict es) (.dict fs) := by
  intro shape? j hj
  obtain ⟨hd, ms, hms, rfl⟩ := value_dict_eq_ok_iff.mp hj
  have hparts : ∃ ds, List.Forall₂ (fun f d => key durable f.1 = .ok d.1 ∧
      value durable (depth - 1) none f.2 = .ok d.2) ordered ds ∧ List.Forall₂ Json.MemberSame ms ds := by
    apply forall₂_transport h ((entries_eq_ok_iff es ms).mp hms)
    intro e _ f m hef hm
    obtain ⟨k, hk, hsame⟩ := hef.2 hm.2
    exact ⟨(m.1, k), ⟨hef.1 ▸ hm.1, hk⟩, rfl, hsame⟩
  obtain ⟨ds, hds, hsame⟩ := hparts
  obtain ⟨ns, hns, hns'⟩ := List.perm_comp_forall₂ hperm.symm hds
  refine ⟨_, value_dict_eq_ok_iff.mpr ⟨hd, ns, (entries_eq_ok_iff fs ns).mpr hns, rfl⟩, ?_⟩
  exact Json.same_joinMembers hsame hns'.symm (hagree ms hms)

theorem sameDocument_record {type : RecordType} {fs gs : List (Text × Value)}
    (h : List.Forall₂ (fun p q => p.1 = q.1 ∧ SameDocument type.isDurable (depth - 1) p.2.2 q.2.2)
      (type.fields.zip fs) (type.fields.zip gs)) :
    SameDocument durable depth (.record type fs) (.record type gs) := by
  intro shape? j hj
  obtain ⟨hd, ms, hms, rfl⟩ := value_record_eq_ok_iff.mp hj
  have hparts : ∃ ns, List.Forall₂ (fun q n => q.1.label = n.1 ∧
      value type.isDurable (depth - 1) (some q.1.shape) q.2.2 = .ok n.2) (type.fields.zip gs) ns ∧
        List.Forall₂ Json.MemberSame ms ns := by
    apply forall₂_transport h ((fields_eq_ok_iff _ fs ms).mp hms)
    intro p _ q m hpq hm
    obtain ⟨k, hk, hsame⟩ := hpq.2 hm.2
    exact ⟨(m.1, k), ⟨hpq.1 ▸ hm.1, hpq.1 ▸ hk⟩, rfl, hsame⟩
  obtain ⟨ns, hns, hsame⟩ := hparts
  refine ⟨.object ns, value_record_eq_ok_iff.mpr ⟨hd, ns, (fields_eq_ok_iff _ gs ns).mpr hns, rfl⟩, ?_⟩
  exact (Json.same_object_iff ms ns).mpr ⟨ns, hsame, .refl ns⟩

theorem sameDocument_entry {type : EntryType} {fs gs : List (Text × Value)}
    (h : List.Forall₂ (fun f g => f.1 = g.1 ∧ SameDocument durable (depth - 1) f.2 g.2) fs gs) :
    SameDocument durable depth (.entry type fs) (.entry type gs) := by
  intro shape? j hj
  obtain ⟨hopen, hd, ms, hms, rfl⟩ := value_entry_eq_ok_iff.mp hj
  have hparts : ∃ ns, List.Forall₂ (fun (g : Text × Value) n => g.1 = n.1 ∧
      value durable (depth - 1) none g.2 = .ok n.2) gs ns ∧ List.Forall₂ Json.MemberSame ms ns := by
    apply forall₂_transport h ((openFields_eq_ok_iff fs ms).mp hms)
    intro f _ g m hfg hm
    obtain ⟨k, hk, hsame⟩ := hfg.2 hm.2
    exact ⟨(m.1, k), ⟨hfg.1 ▸ hm.1, hk⟩, rfl, hsame⟩
  obtain ⟨ns, hns, hsame⟩ := hparts
  refine ⟨.object ns, value_entry_eq_ok_iff.mpr ⟨hopen, hd, ns, (openFields_eq_ok_iff gs ns).mpr hns, rfl⟩, ?_⟩
  exact (Json.same_object_iff ms ns).mpr ⟨ns, hsame, .refl ns⟩

end SameParts

/-! ## Keys -/

/-- The labels of a record type differ from one another. -/
theorem nodup_labels (type : RecordType) : (type.fields.map FieldOf.label).Nodup := by
  cases type <;> decide

/-- The keys of a dumped record are the labels of its fields, in their order. -/
theorem keys_of_fields {durable : Bool} {depth : Nat} {declared : List (FieldOf Shape)}
    {fs : List (Text × Value)} {ms : List (Text × Json)}
    (h : fields durable depth declared fs = .ok ms) :
    ((declared.zip fs).map Prod.fst).map FieldOf.label = ms.map Prod.fst := by
  have hpairs := (fields_eq_ok_iff declared fs ms).mp h
  rw [List.map_map]
  exact map_eq_map_iff_forall₂.mpr (hpairs.imp fun _ _ hp => hp.1)

/-- No two fields are dumped under one label. -/
theorem nodup_keys_of_fields {durable : Bool} {depth : Nat} {declared : List (FieldOf Shape)}
    (hlabels : (declared.map FieldOf.label).Nodup) {fs : List (Text × Value)} {ms : List (Text × Json)}
    (h : fields durable depth declared fs = .ok ms) : (ms.map Prod.fst).Nodup := by
  rw [← keys_of_fields h]
  exact hlabels.sublist ((map_fst_zip_sublist declared fs).map _)

/-- The keys of open fields are their names. -/
theorem keys_of_openFields {durable : Bool} {depth : Nat} {fs : List (Text × Value)}
    {ms : List (Text × Json)} (h : openFields durable depth fs = .ok ms) :
    fs.map Prod.fst = ms.map Prod.fst :=
  map_eq_map_iff_forall₂.mpr (((openFields_eq_ok_iff fs ms).mp h).imp fun _ _ hm => hm.1)

theorem distinctKeys_of_items {durable : Bool} {depth : Nat} {shape? : Option Shape} {vs : List Value}
    (hvs : ∀ v ∈ vs, ∀ {j : Json}, value durable depth shape? v = .ok j → j.DistinctKeys)
    {js : List Json} (h : items durable depth shape? vs = .ok js) : (Json.list js).DistinctKeys := by
  rw [items_eq_ok_iff] at h
  rw [Json.distinctKeys_list_iff]
  intro j hj
  obtain ⟨v, hmem, hvalue⟩ := exists_of_mem_right h hj
  exact hvs v hmem hvalue

theorem distinctKeys_shapedFloat (durable : Bool) (shape? : Option Shape) (x : Binary64) :
    (shapedFloat durable shape? x).DistinctKeys := by
  unfold shapedFloat float
  repeat' split
  all_goals trivial

/-- The document of a wellformed value repeats no key. -/
theorem distinctKeys_of_value {v : Value} (hv : v.Wellformed) {durable : Bool} {depth : Nat}
    {shape? : Option Shape} {j : Json} (h : value durable depth shape? v = .ok j) :
    j.DistinctKeys := by
  induction v generalizing durable depth shape? j with
  | null | bool | int | text | textMember | intMember | moment | date =>
    cases h
    trivial
  | float x =>
    cases h
    exact distinctKeys_shapedFloat durable shape? x
  | bytes | bytearray =>
    obtain ⟨_, _, rfl⟩ := map_eq_ok_iff.mp h
    trivial
  | foreign | endless => cases h
  | member m v ih => exact ih hv h
  | list vs ih =>
    obtain ⟨_, js, hjs, rfl⟩ := value_list_eq_ok_iff.mp h
    exact distinctKeys_of_items (fun v hmem j hj => ih v hmem ((Value.itemsWellformed_iff vs).mp hv v hmem) hj) hjs
  | tuple vs ih =>
    rw [value_tuple] at h
    obtain ⟨_, js, hjs, rfl⟩ := value_list_eq_ok_iff.mp h
    exact distinctKeys_of_items (fun v hmem j hj => ih v hmem ((Value.itemsWellformed_iff vs).mp hv v hmem) hj) hjs
  | dict es ih =>
    obtain ⟨_, ms, hms, rfl⟩ := value_dict_eq_ok_iff.mp h
    rw [entries_eq_ok_iff] at hms
    have hes := (Value.entriesWellformed_iff es).mp hv.2
    rw [Json.distinctKeys_object_iff]
    -- Keys that become one text are joined, so it does not matter whether they were distinct before.
    refine ⟨Json.nodup_keys_joinMembers ms, ?_⟩
    intro m hm
    obtain ⟨e, hmem, _, hvalue⟩ := exists_of_mem_right hms (Json.mem_of_mem_joinMembers hm)
    exact (ih e hmem).2 (hes e hmem) hvalue
  | record type fs ih =>
    obtain ⟨_, ms, hms, rfl⟩ := value_record_eq_ok_iff.mp h
    have hfs := (Value.fieldsWellformed_iff fs).mp hv
    rw [Json.distinctKeys_object_iff]
    refine ⟨nodup_keys_of_fields (nodup_labels type) hms, ?_⟩
    rw [fields_eq_ok_iff] at hms
    intro m hm
    obtain ⟨p, hmem, _, hvalue⟩ := exists_of_mem_right hms hm
    have hfield := (List.of_mem_zip hmem).2
    exact ih p.2 hfield (hfs p.2 hfield) hvalue
  | entry type fs ih =>
    obtain ⟨_, _, ms, hms, rfl⟩ := value_entry_eq_ok_iff.mp h
    have hfs := (Value.fieldsWellformed_iff fs).mp hv.2
    rw [Json.distinctKeys_object_iff]
    -- Open fields go by their names, which are distinct in a wellformed value.
    refine ⟨keys_of_openFields hms ▸ hv.1, ?_⟩
    rw [openFields_eq_ok_iff] at hms
    intro m hm
    obtain ⟨f, hmem, _, hvalue⟩ := exists_of_mem_right hms hm
    exact ih f hmem (hfs f hmem) hvalue

end CanonStore.Dump
