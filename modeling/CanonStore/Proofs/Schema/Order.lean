import CanonStore.Proofs.Schema.Dump
import CanonStore.Proofs.Value.Permuted

/-!
# When the order of entries does not show

Inside a record keys become texts, and of the entries under one text the last remains. A value is
`OrderFree` if entries under one text have the same document, at every depth. These are exactly the values
that become the same document in whatever order their dictionaries list the entries
(`sameDocument_of_permuted`, `orderFree_of_permuted`).
-/

namespace CanonStore.Dump

open Value (Permuted FieldsPermuted)

mutual

/-- The order of entries does not show in the document of the value. -/
def OrderFree (durable : Bool) (depth : Nat) : Value → Prop
  | .member _ v => OrderFree durable depth v
  | .list vs | .tuple vs => ItemsOrderFree durable (depth - 1) vs
  | .dict es => Agreeing durable (depth - 1) es ∧ EntriesOrderFree durable (depth - 1) es
  | .record type fs => FieldsOrderFree type.isDurable (depth - 1) type.fields fs
  | .entry _ fs => OpenFieldsOrderFree durable (depth - 1) fs
  | _ => True
termination_by structural v => v

/-- All items are free of order. -/
def ItemsOrderFree (durable : Bool) (depth : Nat) : List Value → Prop
  | [] => True
  | v :: rest => OrderFree durable depth v ∧ ItemsOrderFree durable depth rest
termination_by structural items => items

/-- The values of all entries are free of order. -/
def EntriesOrderFree (durable : Bool) (depth : Nat) : List (Value × Value) → Prop
  | [] => True
  | (_, v) :: rest => OrderFree durable depth v ∧ EntriesOrderFree durable depth rest
termination_by structural entries => entries

/-- The values in the places of declared fields are free of order. -/
def FieldsOrderFree (durable : Bool) (depth : Nat) : List (FieldOf Shape) → List (Text × Value) → Prop
  | _ :: declared, (_, v) :: rest => OrderFree durable depth v ∧ FieldsOrderFree durable depth declared rest
  | _, _ => True
termination_by structural _ fields => fields

/-- The values of all fields are free of order. -/
def OpenFieldsOrderFree (durable : Bool) (depth : Nat) : List (Text × Value) → Prop
  | [] => True
  | (_, v) :: rest => OrderFree durable depth v ∧ OpenFieldsOrderFree durable depth rest
termination_by structural fields => fields

end

section Parts

variable {durable : Bool} {depth : Nat}

theorem itemsOrderFree_iff (vs : List Value) :
    ItemsOrderFree durable depth vs ↔ ∀ v ∈ vs, OrderFree durable depth v :=
  iff_forall_mem_of_cons trivial (fun _ _ => Iff.rfl) vs

theorem entriesOrderFree_iff (es : List (Value × Value)) :
    EntriesOrderFree durable depth es ↔ ∀ e ∈ es, OrderFree durable depth e.2 :=
  iff_forall_mem_of_cons trivial (fun _ _ => Iff.rfl) es

theorem openFieldsOrderFree_iff (fs : List (Text × Value)) :
    OpenFieldsOrderFree durable depth fs ↔ ∀ f ∈ fs, OrderFree durable depth f.2 :=
  iff_forall_mem_of_cons trivial (fun _ _ => Iff.rfl) fs

theorem fieldsOrderFree_iff (declared : List (FieldOf Shape)) (fs : List (Text × Value)) :
    FieldsOrderFree durable depth declared fs ↔ ∀ p ∈ declared.zip fs, OrderFree durable depth p.2.2 := by
  induction fs generalizing declared with
  | nil => simp [FieldsOrderFree]
  | cons f rest ih =>
    cases declared with
    | nil => simp [FieldsOrderFree]
    | cons d declared => rw [FieldsOrderFree, ih, List.zip_cons_cons, List.forall_mem_cons]

end Parts

/-! ## Any order gives the document -/

/-- In whatever order the entries of such a value stand, its document is the same. -/
theorem sameDocument_of_permuted {v w : Value} (h : Permuted v w) {durable : Bool} {depth : Nat}
    (hv : OrderFree durable depth v) : SameDocument durable depth v w := by
  induction v generalizing w durable depth with
  | null | bool | int | float | text | textMember | intMember | bytes | bytearray | moment | date
  | foreign | endless =>
    intro shape? j hj
    cases w <;> cases h
    exact ⟨j, hj, .refl j⟩
  | member m v ih =>
    cases w with
    | member n w =>
      intro shape? j hj
      rw [value] at hj ⊢
      exact ih h.2 hv hj
    | _ => cases h
  | list vs ih =>
    cases w with
    | list ws =>
      have hitems := (itemsOrderFree_iff vs).mp hv
      exact sameDocument_list (forall₂_imp_of_mem ((Value.itemsPermuted_iff vs ws).mp h)
        fun v hmem _ hvw => ih v hmem hvw (hitems v hmem))
    | _ => cases h
  | tuple vs ih =>
    cases w with
    | tuple ws =>
      have hitems := (itemsOrderFree_iff vs).mp hv
      exact sameDocument_tuple (forall₂_imp_of_mem ((Value.itemsPermuted_iff vs ws).mp h)
        fun v hmem _ hvw => ih v hmem hvw (hitems v hmem))
    | _ => cases h
  | dict es ih =>
    cases w with
    | dict fs =>
      obtain ⟨hagree, hentries⟩ := hv
      rw [entriesOrderFree_iff] at hentries
      obtain ⟨ordered, hpairs, hperm⟩ := (Value.entriesPermuted_iff es fs).mp h
      -- Another order may leave another entry under a text, but those agree.
      refine sameDocument_dict (forall₂_imp_of_mem hpairs fun e he f hef => ?_) hperm hagree
      exact ⟨by rw [hef.1], (ih e he).2 hef.2 (hentries e he)⟩
    | _ => cases h
  | record type fs ih =>
    cases w with
    | record t gs =>
      obtain ⟨rfl, h⟩ := h
      have hfields := (fieldsOrderFree_iff type.fields fs).mp hv
      have hpairs := forall₂_zip_left type.fields ((Value.fieldsPermuted_iff fs gs).mp h)
      refine sameDocument_record (forall₂_imp_of_mem hpairs ?_)
      intro p hp q hpq
      exact ⟨hpq.1, ih p.2 (List.of_mem_zip hp).2 hpq.2.2 (hfields p hp)⟩
    | _ => cases h
  | entry type fs ih =>
    cases w with
    | entry t gs =>
      obtain ⟨rfl, h⟩ := h
      have hfields := (openFieldsOrderFree_iff fs).mp hv
      refine sameDocument_entry (forall₂_imp_of_mem ((Value.fieldsPermuted_iff fs gs).mp h)
        fun f hf g hfg => ?_)
      exact ⟨hfg.1, ih f hf hfg.2 (hfields f hf)⟩
    | _ => cases h

/-! ## Only then -/

/-- Whatever order its entries have, the value becomes the document, or one that is the same. -/
def KeepsDocument (durable : Bool) (depth : Nat) (shape? : Option Shape) (v : Value) (j : Json) : Prop :=
  ∀ w, Permuted v w → ∃ k, value durable depth shape? w = .ok k ∧ j.Same k

section Keeps

variable {durable : Bool} {depth : Nat} {shape? : Option Shape}

theorem KeepsDocument.items {vs : List Value} {js : List Json}
    (hjs : items durable (depth - 1) (itemShape? shape?) vs = .ok js)
    (h : KeepsDocument durable depth shape? (.list vs) (.list js)) :
    List.Forall₂ (fun v j => value durable (depth - 1) (itemShape? shape?) v = .ok j ∧
      KeepsDocument durable (depth - 1) (itemShape? shape?) v j) vs js := by
  rw [items_eq_ok_iff] at hjs
  apply forall₂_of_replaced Permuted.refl hjs
  intro ws hws
  obtain ⟨k, hk, hsame⟩ := h (.list ws) ((Value.itemsPermuted_iff vs ws).mpr hws)
  obtain ⟨_, ks, hks, rfl⟩ := value_list_eq_ok_iff.mp hk
  exact ⟨ks, (items_eq_ok_iff ws ks).mp hks, (Json.same_list_iff js ks).mp hsame⟩

theorem KeepsDocument.list_of_tuple {vs : List Value} {j : Json}
    (h : KeepsDocument durable depth shape? (.tuple vs) j) :
    KeepsDocument durable depth shape? (.list vs) j := by
  intro w hw
  cases w with
  | list ws =>
    rw [← value_tuple]
    exact h (.tuple ws) hw
  | _ => cases hw

/-- Each entry gives what its key keeps, since it may be the last one. -/
theorem KeepsDocument.entry {es : List (Value × Value)} {members : List (Text × Json)}
    (h : KeepsDocument durable depth shape? (.dict es) (.object members)) {e : Value × Value} (he : e ∈ es)
    {t : Text} (ht : key durable e.1 = .ok t) {j : Json} (hj : (t, j) ∈ members) {w : Value}
    (hw : Permuted e.2 w) : ∃ k, value durable (depth - 1) none w = .ok k ∧ j.Same k := by
  -- The entry moves to the end, where its key keeps what it gives.
  obtain ⟨rest, hperm⟩ := Value.exists_entriesPermuted_concat he hw
  obtain ⟨k, hk, hsame⟩ := h (.dict (rest ++ [(e.1, w)])) hperm
  obtain ⟨_, ns, hns, rfl⟩ := value_dict_eq_ok_iff.mp hk
  obtain ⟨before, last, rfl, _, hlast⟩ := exists_append_of_forall₂ ((entries_eq_ok_iff _ _).mp hns)
  obtain ⟨⟨u, k⟩, last, ⟨hu, hvalue⟩, hnil, rfl⟩ := List.forall₂_cons_left_iff.mp hlast
  obtain rfl := List.forall₂_nil_left_iff.mp hnil
  obtain rfl := Except.ok.inj (ht.symm.trans hu)
  refine ⟨k, hvalue, ?_⟩
  exact Json.same_of_mem hsame (Json.nodup_keys_joinMembers _) hj (Json.mem_joinMembers_concat _ t k)

/-- What remains under a key is the document of each entry of that key. -/
theorem KeepsDocument.exists_joined {es : List (Value × Value)} {ms : List (Text × Json)}
    (h : KeepsDocument durable depth shape? (.dict es) (.object (Json.joinMembers ms)))
    (hms : entries durable (depth - 1) es = .ok ms) {m : Text × Json} (hm : m ∈ ms) :
    ∃ j, (m.1, j) ∈ Json.joinMembers ms ∧ j.Same m.2 := by
  obtain ⟨e, he, hkey, hvalue⟩ := exists_of_mem_right ((entries_eq_ok_iff es ms).mp hms) hm
  have hmem := Json.mem_keys_joinMembers.mpr (List.mem_map_of_mem hm)
  obtain ⟨⟨_, j⟩, hj, rfl⟩ := List.mem_map.mp hmem
  obtain ⟨k, hk, hsame⟩ := h.entry he hkey hj (.refl e.2)
  obtain rfl := Except.ok.inj (hvalue.symm.trans hk)
  exact ⟨j, hj, hsame⟩

/-- Each field gives the member under its label. -/
theorem KeepsDocument.field {type : RecordType} {fs : List (Text × Value)} {members : List (Text × Json)}
    (h : KeepsDocument durable depth shape? (.record type fs) (.object members))
    {d : FieldOf Shape} {f : Text × Value} (hp : (d, f) ∈ type.fields.zip fs) {j : Json}
    (hj : (d.label, j) ∈ members) : KeepsDocument type.isDurable (depth - 1) (some d.shape) f.2 j := by
  intro w hw
  -- The field keeps its place, which is that of its declaration.
  obtain ⟨_, _, hzip⟩ := List.append_of_mem hp
  obtain ⟨ds, declared, gs, rest, hlength, hds, rfl, _, hafter⟩ := List.zip_eq_append_iff.mp hzip
  obtain ⟨ds', gs', rfl, rfl, _⟩ := List.zip_eq_cons_iff.mp hafter.symm
  obtain ⟨k, hk, hsame⟩ := h (.record type (gs ++ (f.1, w) :: gs'))
    ⟨rfl, Value.fieldsPermuted_middle gs gs' hw⟩
  obtain ⟨_, ns, hns, rfl⟩ := value_record_eq_ok_iff.mp hk
  have hplace : (d, (f.1, w)) ∈ type.fields.zip (gs ++ (f.1, w) :: gs') := by
    rw [hds, List.zip_append hlength, List.zip_cons_cons]
    exact List.mem_append_right _ List.mem_cons_self
  obtain ⟨n, hn, hlabel, hvalue⟩ := exists_of_mem_left ((fields_eq_ok_iff _ _ ns).mp hns) hplace
  refine ⟨n.2, hvalue, Json.same_of_mem hsame (nodup_keys_of_fields (nodup_labels type) hns) hj ?_⟩
  rw [show d.label = n.1 from hlabel]
  exact hn

/-- Each field that is open to all gives the member under its name. -/
theorem KeepsDocument.openField {type : EntryType} {fs : List (Text × Value)} {members : List (Text × Json)}
    (hfs : (fs.map Prod.fst).Nodup)
    (h : KeepsDocument durable depth shape? (.entry type fs) (.object members)) {f : Text × Value}
    (hf : f ∈ fs) {j : Json} (hj : (f.1, j) ∈ members) :
    KeepsDocument durable (depth - 1) none f.2 j := by
  intro w hw
  obtain ⟨before, after, rfl⟩ := List.append_of_mem hf
  obtain ⟨k, hk, hsame⟩ := h (.entry type (before ++ (f.1, w) :: after))
    ⟨rfl, Value.fieldsPermuted_middle before after hw⟩
  obtain ⟨_, _, ns, hns, rfl⟩ := value_entry_eq_ok_iff.mp hk
  have hkeys := keys_of_openFields hns
  rw [List.map_append, List.map_cons] at hfs hkeys
  obtain ⟨n, hn, hname, hvalue⟩ := exists_of_mem_left ((openFields_eq_ok_iff _ _).mp hns)
    (List.mem_append_right before List.mem_cons_self)
  refine ⟨n.2, hvalue, Json.same_of_mem hsame (hkeys ▸ hfs) hj ?_⟩
  rw [show f.1 = n.1 from hname]
  exact hn

/-- The items of a list are free of order if that holds of everything that keeps its document. -/
theorem itemsOrderFree_of_keepsDocument {vs : List Value} {j : Json}
    (hitem : ∀ v ∈ vs, ∀ k, value durable (depth - 1) (itemShape? shape?) v = .ok k →
      KeepsDocument durable (depth - 1) (itemShape? shape?) v k → OrderFree durable (depth - 1) v)
    (hj : value durable depth shape? (.list vs) = .ok j) (h : KeepsDocument durable depth shape? (.list vs) j) :
    ItemsOrderFree durable (depth - 1) vs := by
  obtain ⟨_, js, hjs, rfl⟩ := value_list_eq_ok_iff.mp hj
  apply (itemsOrderFree_iff vs).mpr
  intro v hmem
  obtain ⟨k, _, hvalue, hkeeps⟩ := exists_of_mem_left (h.items hjs) hmem
  exact hitem v hmem k hvalue hkeeps

end Keeps

/-- The order of entries can not show only if entries under one text have the same document. -/
theorem orderFree_of_permuted {v : Value} (hv : v.Wellformed) {durable : Bool} {depth : Nat}
    {shape? : Option Shape} {j : Json} (hj : value durable depth shape? v = .ok j)
    (h : KeepsDocument durable depth shape? v j) : OrderFree durable depth v := by
  induction v generalizing durable depth shape? j with
  | null | bool | int | float | text | textMember | intMember | bytes | bytearray | moment | date
  | foreign | endless => trivial
  | member m v ih =>
    apply ih hv hj
    intro w hw
    exact h (.member m w) ⟨rfl, hw⟩
  | list vs ih =>
    have hvs := (Value.itemsWellformed_iff vs).mp hv
    exact itemsOrderFree_of_keepsDocument (fun v hmem _ => ih v hmem (hvs v hmem)) hj h
  | tuple vs ih =>
    -- A tuple becomes the document of the list of its items.
    rw [value_tuple] at hj
    have hvs := (Value.itemsWellformed_iff vs).mp hv
    exact itemsOrderFree_of_keepsDocument (fun v hmem _ => ih v hmem (hvs v hmem)) hj h.list_of_tuple
  | dict es ih =>
    obtain ⟨_, ms, hms, rfl⟩ := value_dict_eq_ok_iff.mp hj
    have hes := (Value.entriesWellformed_iff es).mp hv.2
    refine ⟨fun ms' hms' m hm n hn hkey => ?_, (entriesOrderFree_iff es).mpr fun e he => ?_⟩
    · -- Both members have the document of the one that remains under their key.
      obtain rfl := Except.ok.inj (hms'.symm.trans hms)
      obtain ⟨j, hj, hjm⟩ := h.exists_joined hms hm
      obtain ⟨k, hk, hkn⟩ := h.exists_joined hms hn
      obtain rfl := (Prod.mk.inj (Json.eq_of_key_eq (Json.nodup_keys_joinMembers _) hj hk hkey)).2
      exact hjm.symm.trans hkn
    · obtain ⟨m, hm, hkey, hvalue⟩ := exists_of_mem_left ((entries_eq_ok_iff es ms).mp hms) he
      obtain ⟨j, hj, hjm⟩ := h.exists_joined hms hm
      apply (ih e he).2 (hes e he) hvalue
      intro w hw
      obtain ⟨k, hk, hsame⟩ := h.entry he hkey hj hw
      exact ⟨k, hk, hjm.symm.trans hsame⟩
  | record type fs ih =>
    obtain ⟨_, ms, hms, rfl⟩ := value_record_eq_ok_iff.mp hj
    have hfs := (Value.fieldsWellformed_iff fs).mp hv
    apply (fieldsOrderFree_iff type.fields fs).mpr
    intro p hp
    obtain ⟨m, hm, hlabel, hvalue⟩ := exists_of_mem_left ((fields_eq_ok_iff _ fs ms).mp hms) hp
    have hmem := (List.of_mem_zip hp).2
    exact ih p.2 hmem (hfs p.2 hmem) hvalue (h.field hp (hlabel ▸ hm))
  | entry type fs ih =>
    obtain ⟨_, _, ms, hms, rfl⟩ := value_entry_eq_ok_iff.mp hj
    have hfs := (Value.fieldsWellformed_iff fs).mp hv.2
    apply (openFieldsOrderFree_iff fs).mpr
    intro f hf
    obtain ⟨m, hm, hname, hvalue⟩ := exists_of_mem_left ((openFields_eq_ok_iff fs ms).mp hms) hf
    exact ih f hf (hfs f hf) hvalue (h.openField hv.1 hf (hname ▸ hm))

end CanonStore.Dump
