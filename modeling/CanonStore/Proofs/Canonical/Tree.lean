import CanonStore.Canonical.OfValue
import CanonStore.Proofs.Json.RoundTrip
import CanonStore.Proofs.Schema.Dump

/-!
# Canonical trees

What is known of the tree of a value once there is one. `readable_ofValueAt`: its document can be read
back, unless an integer in it is too long. `distinctKeys_ofValueAt`: its document repeats no key if the
value is wellformed.
-/

namespace CanonStore

open Json (Readable DistinctKeys)

/-- More open brackets do no harm. -/
theorem Json.Readable.mono {j : Json} {depth more : Nat} (h : Readable depth j) (hle : depth ≤ more) :
    Readable more j := by
  induction j generalizing depth more with
  | null | bool | int | float | text => exact h
  | list items ih =>
    rw [Json.readable_list_iff] at h ⊢
    exact ⟨by omega, fun j hj => ih j hj (h.2 j hj) (by omega)⟩
  | object members ih =>
    rw [Json.readable_object_iff] at h ⊢
    exact ⟨by omega, fun m hm => ih m hm (h.2 m hm) (by omega)⟩

/-- What the canonical form takes is read back, because the reader goes deeper. -/
theorem Json.Readable.loads {j : Json} (h : Readable Canonical.maxDepth j) : Readable maxDepth j :=
  h.mono (by decide)

/-- No integer of a readable document is too long. -/
theorem Json.Readable.hasOversized_eq_false {j : Json} {depth : Nat} (h : Readable depth j) :
    hasOversized j = false := by
  induction j generalizing depth with
  | null | bool | float | text => rfl
  | int => exact h
  | list items ih =>
    rw [Json.readable_list_iff] at h
    rw [Json.hasOversized_list_eq_false]
    exact fun j hj => ih j hj (h.2 j hj)
  | object members ih =>
    rw [Json.readable_object_iff] at h
    rw [Json.hasOversized_object_eq_false]
    exact fun m hm => ih m hm (h.2 m hm)

namespace Canonical

theorem toJson_list (items : List Canonical) : toJson (.list items) = .list (items.map toJson) := by
  have hitems : itemsToJson items = items.map toJson := eq_map_of_cons rfl (fun _ _ => rfl) items
  exact congrArg Json.list hitems

theorem toJson_object (members : List (Label × Canonical)) :
    toJson (.object members) = .object (members.map (Prod.map Label.text toJson)) := by
  have hmembers : membersToJson members = members.map (Prod.map Label.text toJson) :=
    eq_map_of_cons rfl (fun _ _ => rfl) members
  exact congrArg Json.object hmembers

/-- Only finite floats have a tree, and they are their own. -/
theorem ofFloat_eq_ok {place : Location} {x : Binary64} {c : Canonical}
    (h : ofFloat place x = .ok c) : x.isFinite ∧ c = .float x := by
  rw [ofFloat] at h
  split at h
  · next hx => exact ⟨hx, (Except.ok.inj h).symm⟩
  · cases h

/-! ## Trees of documents -/

section OfJson

variable {depth : Nat} {place : Location}

/-- A list of documents has a tree if there is depth for it and every item has one. -/
theorem ofJson_list_eq_ok_iff {items : List Json} {c : Canonical} :
    ofJson depth place (.list items) = .ok c ↔
      depth ≠ 0 ∧ ∃ cs, ofJsonItems (depth - 1) place 0 items = .ok cs ∧ c = .list cs := guarded_eq_ok_iff

/-- An object has a tree if there is depth for it and every member has one. -/
theorem ofJson_object_eq_ok_iff {members : List (Text × Json)} {c : Canonical} :
    ofJson depth place (.object members) = .ok c ↔
      depth ≠ 0 ∧ ∃ ns, ofJsonMembers (depth - 1) place members = .ok ns ∧ c = .object ns :=
  guarded_eq_ok_iff

theorem forall₂_ofJsonItems {index : Nat} {js : List Json} {cs : List Canonical}
    (h : ofJsonItems depth place index js = .ok cs) :
    List.Forall₂ (fun j c => ∃ p, ofJson depth p j = .ok c) js cs := by
  induction js generalizing index cs with
  | nil =>
    cases h
    exact .nil
  | cons j rest ih =>
    obtain ⟨c, hc, h⟩ := bind_eq_ok_iff.mp h
    obtain ⟨cs', hcs', h⟩ := bind_eq_ok_iff.mp h
    cases h
    exact .cons ⟨_, hc⟩ (ih hcs')

theorem forall₂_ofJsonMembers {ms : List (Text × Json)} {ns : List (Label × Canonical)}
    (h : ofJsonMembers depth place ms = .ok ns) :
    List.Forall₂ (fun m n => m.1 = n.1.text ∧ ∃ p, ofJson depth p m.2 = .ok n.2) ms ns := by
  induction ms generalizing ns with
  | nil =>
    cases h
    exact .nil
  | cons m rest ih =>
    obtain ⟨c, hc, h⟩ := bind_eq_ok_iff.mp h
    obtain ⟨ns', hns', h⟩ := bind_eq_ok_iff.mp h
    cases h
    exact .cons ⟨rfl, _, hc⟩ (ih hns')

/-- The tree of a document is a tree of that document. -/
theorem toJson_ofJson {j : Json} {c : Canonical} (h : ofJson depth place j = .ok c) : c.toJson = j := by
  induction j generalizing depth place c with
  | null | bool | int | text =>
    cases h
    rfl
  | float x =>
    obtain ⟨_, rfl⟩ := ofFloat_eq_ok h
    rfl
  | list items ih =>
    obtain ⟨_, cs, hcs, rfl⟩ := ofJson_list_eq_ok_iff.mp h
    -- Both sides are lists over the parts now, and the parts are compared one by one.
    rw [toJson_list, ← List.map_id' items]
    congr 1
    refine (map_eq_map_iff_forall₂.mpr (forall₂_imp_of_mem (forall₂_ofJsonItems hcs) ?_)).symm
    rintro j hj c ⟨p, hp⟩
    exact (ih j hj hp).symm
  | object members ih =>
    obtain ⟨_, ns, hns, rfl⟩ := ofJson_object_eq_ok_iff.mp h
    rw [toJson_object, ← List.map_id' members]
    congr 1
    refine (map_eq_map_iff_forall₂.mpr (forall₂_imp_of_mem (forall₂_ofJsonMembers hns) ?_)).symm
    rintro m hm n ⟨hkey, p, hp⟩
    exact Prod.ext hkey (ih m hm hp).symm

/-- The document of a tree can be read back if no integer in it is too long. -/
theorem readable_ofJson {j : Json} {c : Canonical} (h : ofJson depth place j = .ok c)
    (hj : j.hasOversized = false) : Readable depth j := by
  induction j generalizing depth place c with
  | null | bool | text => trivial
  | int => exact hj
  | float x => exact (ofFloat_eq_ok h).1
  | list items ih =>
    obtain ⟨hd, cs, hcs, rfl⟩ := ofJson_list_eq_ok_iff.mp h
    rw [Json.hasOversized_list_eq_false] at hj
    rw [Json.readable_list_iff]
    refine ⟨Nat.pos_of_ne_zero hd, ?_⟩
    intro j hmem
    obtain ⟨c, _, p, hc⟩ := exists_of_mem_left (forall₂_ofJsonItems hcs) hmem
    exact ih j hmem hc (hj j hmem)
  | object members ih =>
    obtain ⟨hd, ns, hns, rfl⟩ := ofJson_object_eq_ok_iff.mp h
    rw [Json.hasOversized_object_eq_false] at hj
    rw [Json.readable_object_iff]
    refine ⟨Nat.pos_of_ne_zero hd, ?_⟩
    intro m hmem
    obtain ⟨n, _, _, p, hn⟩ := exists_of_mem_left (forall₂_ofJsonMembers hns) hmem
    exact ih m hmem hn (hj m hmem)

/-- Items that have a tree wherever they stand have one together. -/
theorem exists_ofJsonItems {items : List Json} (h : ∀ j ∈ items, ∀ p, ∃ c, ofJson depth p j = .ok c)
    (place : Location) (index : Nat) : ∃ cs, ofJsonItems depth place index items = .ok cs := by
  induction items generalizing index with
  | nil => exact ⟨[], rfl⟩
  | cons j rest ih =>
    rw [List.forall_mem_cons] at h
    obtain ⟨c, hc⟩ := h.1 (place.item index)
    obtain ⟨cs, hcs⟩ := ih h.2 (index + 1)
    exact ⟨c :: cs, walk_eq_ok_iff.mpr ⟨c, cs, rfl, ⟨c, hc, rfl⟩, hcs⟩⟩

/-- Members that have a tree wherever they stand have one together. -/
theorem exists_ofJsonMembers {members : List (Text × Json)}
    (h : ∀ m ∈ members, ∀ p, ∃ c, ofJson depth p m.2 = .ok c) (place : Location) :
    ∃ ns, ofJsonMembers depth place members = .ok ns := by
  induction members with
  | nil => exact ⟨[], rfl⟩
  | cons m rest ih =>
    rw [List.forall_mem_cons] at h
    obtain ⟨c, hc⟩ := h.1 (place.key (.plain m.1))
    obtain ⟨ns, hns⟩ := ih h.2
    exact ⟨(.plain m.1, c) :: ns, walk_eq_ok_iff.mpr ⟨_, ns, rfl, ⟨c, hc, rfl⟩, hns⟩⟩

/-- A document that can be read back has a tree. -/
theorem exists_ofJson {j : Json} (h : Readable depth j) (place : Location) :
    ∃ c, ofJson depth place j = .ok c := by
  induction j generalizing depth place with
  | null => exact ⟨.null, rfl⟩
  | bool b => exact ⟨.bool b, rfl⟩
  | int n => exact ⟨.int n, rfl⟩
  | float x => exact ⟨.float x, if_pos h⟩
  | text t => exact ⟨.text (.plain t), rfl⟩
  | list items ih =>
    obtain ⟨hd, hitems⟩ := (Json.readable_list_iff _ _).mp h
    obtain ⟨cs, hcs⟩ := exists_ofJsonItems (fun j hj => ih j hj (hitems j hj)) place 0
    exact ⟨.list cs, ofJson_list_eq_ok_iff.mpr ⟨hd.ne', cs, hcs, rfl⟩⟩
  | object members ih =>
    obtain ⟨hd, hvalues⟩ := (Json.readable_object_iff _ _).mp h
    obtain ⟨ns, hns⟩ := exists_ofJsonMembers (fun m hm => ih m hm (hvalues m hm)) place
    exact ⟨.object ns, ofJson_object_eq_ok_iff.mpr ⟨hd.ne', ns, hns, rfl⟩⟩

end OfJson

/-! ## Trees of values -/

section OfValue

variable {depth : Nat} {place : Location}

/-- A list has a tree if there is depth for it and every item has one. -/
theorem ofValueAt_list_eq_ok_iff {vs : List Value} {c : Canonical} :
    ofValueAt depth place (.list vs) = .ok c ↔
      depth ≠ 0 ∧ ∃ cs, ofItems (depth - 1) place 0 vs = .ok cs ∧ c = .list cs := guarded_eq_ok_iff

/-- A tuple is treated as a list. -/
theorem ofValueAt_tuple (vs : List Value) :
    ofValueAt depth place (.tuple vs) = ofValueAt depth place (.list vs) := rfl

/-- A dictionary has a tree if there is depth for it, every key is a text and every value has a tree. -/
theorem ofValueAt_dict_eq_ok_iff {es : List (Value × Value)} {c : Canonical} :
    ofValueAt depth place (.dict es) = .ok c ↔
      depth ≠ 0 ∧ ∃ ms, ofEntries (depth - 1) place es = .ok ms ∧ c = .object ms := guarded_eq_ok_iff

/-- A moment has a text for its tree. -/
theorem ofValueAt_moment_eq_ok {m : Moment} {c : Canonical}
    (h : ofValueAt depth place (.moment m) = .ok c) : ∃ t, c = .text (.plain t) := by
  unfold ofValueAt at h
  cases ht : m.canonicalText? with
  | none =>
    rw [ht] at h
    cases h
  | some t =>
    rw [ht] at h
    exact ⟨t, (Except.ok.inj h).symm⟩

/-- A member of an enumeration has the tree of what it stands for, one level further down. -/
theorem ofValueAt_member_eq_ok_iff {m : Member} {v : Value} {c : Canonical} :
    ofValueAt depth place (.member m v) = .ok c ↔ depth ≠ 0 ∧ ofValueAt (depth - 1) place v = .ok c := by
  show (if depth = 0 then _ else _) = Except.ok c ↔ _
  split
  · next hd => simp [hd]
  · next hd => simp [hd]

/-- A record has the tree of the document that it dumps to. -/
theorem ofValueAt_record_eq_ok_iff {type : RecordType} {fs : List (Text × Value)} {c : Canonical} :
    ofValueAt depth place (.record type fs) = .ok c ↔
      ∃ j, type.dump fs = .ok j ∧ ofJson depth place j = .ok c := by
  unfold ofValueAt
  cases type.dump fs with
  | error cause => simp
  | ok j => simp

/-- Items are treated one by one, each at a place of its own. -/
theorem forall₂_ofItems {index : Nat} {vs : List Value} {cs : List Canonical}
    (h : ofItems depth place index vs = .ok cs) :
    List.Forall₂ (fun v c => ∃ p, ofValueAt depth p v = .ok c) vs cs := by
  induction vs generalizing index cs with
  | nil =>
    cases h
    exact .nil
  | cons v rest ih =>
    obtain ⟨c, hc, h⟩ := bind_eq_ok_iff.mp h
    obtain ⟨cs', hcs', h⟩ := bind_eq_ok_iff.mp h
    cases h
    exact .cons ⟨_, hc⟩ (ih hcs')

/-- Only texts are labels. -/
theorem keyLabel_eq_ok_iff {k : Value} {l : Label} : keyLabel place k = .ok l ↔ Label.ofValue? k = some l := by
  unfold keyLabel
  cases Label.ofValue? k with
  | some l' => simp
  | none =>
    cases k.display with
    | ok shown => simp
    | error fault => cases fault <;> simp

/-- Entries are treated one by one, each under its label. -/
theorem ofEntries_eq_ok_iff (es : List (Value × Value)) (ms : List (Label × Canonical)) :
    ofEntries depth place es = .ok ms ↔
      List.Forall₂ (fun e m => Label.ofValue? e.1 = some m.1 ∧
        ofValueAt depth (place.key m.1) e.2 = .ok m.2) es ms := by
  apply iff_forall₂_of_cons (P := fun es ms => ofEntries depth place es = .ok ms)
  · exact fun _ => ok_eq_ok_iff
  · intro e rest ms
    refine bind_eq_ok_iff.trans ?_
    simp only [keyLabel_eq_ok_iff]
    constructor
    · rintro ⟨l, hl, h⟩
      obtain ⟨m, ms', rfl, ⟨c, hc, rfl⟩, hrest⟩ := walk_eq_ok_iff.mp h
      exact ⟨(l, c), ms', rfl, ⟨hl, hc⟩, hrest⟩
    · rintro ⟨m, ms', rfl, ⟨hl, hc⟩, hrest⟩
      exact ⟨m.1, hl, walk_eq_ok_iff.mpr ⟨m, ms', rfl, ⟨m.2, hc, rfl⟩, hrest⟩⟩

/-- A label has the text of the value that it comes from. -/
theorem text?_of_ofValue? {k : Value} {l : Label} (h : Label.ofValue? k = some l) :
    k.text? = some l.text := by
  cases k with
  | text | textMember =>
    cases h
    rfl
  | _ => cases h

/-- A list of trees can be read if each of them can. -/
theorem readable_list {items : List Value} {cs : List Canonical} (hd : 0 < depth)
    (hcs : List.Forall₂ (fun v c => ∃ p, ofValueAt (depth - 1) p v = .ok c) items cs)
    (hsize : (toJson (.list cs)).hasOversized = false)
    (h : ∀ v ∈ items, ∀ c p, ofValueAt (depth - 1) p v = .ok c → c.toJson.hasOversized = false →
      Readable (depth - 1) c.toJson) : Readable depth (toJson (.list cs)) := by
  rw [toJson_list, Json.hasOversized_list_eq_false] at hsize
  rw [toJson_list, Json.readable_list_iff]
  refine ⟨hd, ?_⟩
  intro j hj
  obtain ⟨c, hmem, rfl⟩ := List.mem_map.mp hj
  obtain ⟨v, hv, p, hp⟩ := exists_of_mem_right hcs hmem
  exact h v hv c p hp (hsize _ hj)

/-- The document of the tree of a value can be read back if no integer in it is too long. -/
theorem readable_ofValueAt {v : Value} {c : Canonical} (h : ofValueAt depth place v = .ok c)
    (hc : c.toJson.hasOversized = false) : Readable depth c.toJson := by
  induction v generalizing depth place c with
  | null | bool | text | textMember | bytes | bytearray =>
    cases h
    trivial
  | int | intMember =>
    cases h
    exact hc
  | float x =>
    obtain ⟨hx, rfl⟩ := ofFloat_eq_ok h
    exact hx
  | moment m =>
    obtain ⟨t, rfl⟩ := ofValueAt_moment_eq_ok h
    trivial
  | date | entry | foreign | endless => cases h
  | member m v ih =>
    -- The member has taken one container of the depth that its value does not show.
    obtain ⟨_, h⟩ := ofValueAt_member_eq_ok_iff.mp h
    exact (ih h hc).mono (Nat.sub_le depth 1)
  | record type fields =>
    -- A record is first dumped as a document, and its tree is the tree of that.
    obtain ⟨j, _, hj⟩ := ofValueAt_record_eq_ok_iff.mp h
    rw [toJson_ofJson hj] at hc ⊢
    exact readable_ofJson hj hc
  | list items ih =>
    obtain ⟨hd, cs, hcs, rfl⟩ := ofValueAt_list_eq_ok_iff.mp h
    exact readable_list (Nat.pos_of_ne_zero hd) (forall₂_ofItems hcs) hc fun v hv c p => ih v hv
  | tuple items ih =>
    rw [ofValueAt_tuple] at h
    obtain ⟨hd, cs, hcs, rfl⟩ := ofValueAt_list_eq_ok_iff.mp h
    exact readable_list (Nat.pos_of_ne_zero hd) (forall₂_ofItems hcs) hc fun v hv c p => ih v hv
  | dict entries ih =>
    obtain ⟨hd, ms, hms, rfl⟩ := ofValueAt_dict_eq_ok_iff.mp h
    rw [toJson_object, Json.hasOversized_object_eq_false] at hc
    rw [toJson_object, Json.readable_object_iff]
    refine ⟨Nat.pos_of_ne_zero hd, ?_⟩
    intro n hn
    obtain ⟨m, hmem, rfl⟩ := List.mem_map.mp hn
    obtain ⟨e, he, _, hvalue⟩ := exists_of_mem_right ((ofEntries_eq_ok_iff _ _).mp hms) hmem
    exact (ih e he).2 hvalue (hc _ hn)

theorem ofItems_itemsToValues {items : List Json}
    (h : ∀ j ∈ items, ∀ p, ofValueAt depth p j.toValue = ofJson depth p j) (place : Location) (index : Nat) :
    ofItems depth place index (Json.itemsToValues items) = ofJsonItems depth place index items := by
  induction items generalizing index with
  | nil => rfl
  | cons j rest ih =>
    rw [List.forall_mem_cons] at h
    show (do
      let c ← ofValueAt depth (place.item index) j.toValue
      let cs ← ofItems depth place (index + 1) (Json.itemsToValues rest)
      pure (c :: cs)) = _
    rw [h.1, ih h.2]
    rfl

theorem ofEntries_membersToEntries {members : List (Text × Json)}
    (h : ∀ m ∈ members, ∀ p, ofValueAt depth p m.2.toValue = ofJson depth p m.2) (place : Location) :
    ofEntries depth place (Json.membersToEntries members) = ofJsonMembers depth place members := by
  induction members with
  | nil => rfl
  | cons m rest ih =>
    rw [List.forall_mem_cons] at h
    show (do
      let c ← ofValueAt depth (place.key (.plain m.1)) m.2.toValue
      let ms ← ofEntries depth place (Json.membersToEntries rest)
      pure ((Label.plain m.1, c) :: ms)) = _
    rw [h.1, ih h.2]
    rfl

/-- The tree of a document as a value is that of the document. -/
theorem ofValueAt_toValue (j : Json) : ofValueAt depth place j.toValue = ofJson depth place j := by
  induction j generalizing depth place with
  | null | bool | int | float | text => rfl
  | list items ih =>
    show (if depth = 0 then _ else _) = _
    rw [ofItems_itemsToValues fun j hj p => ih j hj]
    rfl
  | object members ih =>
    show (if depth = 0 then _ else _) = _
    rw [ofEntries_membersToEntries fun m hm p => ih m hm]
    rfl

/-- The keys of a wellformed dictionary differ in their texts. -/
theorem nodup_keys_of_entries {es : List (Value × Value)} {ms : List (Label × Canonical)}
    (hes : es.Pairwise fun e f => Value.sameAs e.1 f.1 = false)
    (h : ofEntries depth place es = .ok ms) :
    ((ms.map (Prod.map Label.text toJson)).map Prod.fst).Nodup := by
  rw [List.map_map]
  exact Value.nodup_texts hes (((ofEntries_eq_ok_iff es ms).mp h).imp fun _ _ hem => text?_of_ofValue? hem.1)

/-- A list of trees with distinct keys has distinct keys. -/
theorem distinctKeys_list {items : List Value} {cs : List Canonical}
    (hcs : List.Forall₂ (fun v c => ∃ p, ofValueAt depth p v = .ok c) items cs)
    (h : ∀ v ∈ items, ∀ c p, ofValueAt depth p v = .ok c → DistinctKeys c.toJson) :
    DistinctKeys (toJson (.list cs)) := by
  rw [toJson_list, Json.distinctKeys_list_iff]
  intro j hj
  obtain ⟨c, hmem, rfl⟩ := List.mem_map.mp hj
  obtain ⟨v, hv, p, hp⟩ := exists_of_mem_right hcs hmem
  exact h v hv c p hp

/-- The document of the tree of a wellformed value repeats no key. -/
theorem distinctKeys_ofValueAt {v : Value} (hv : v.Wellformed) {c : Canonical}
    (h : ofValueAt depth place v = .ok c) : DistinctKeys c.toJson := by
  induction v generalizing depth place c with
  | null | bool | int | text | textMember | intMember | bytes | bytearray =>
    cases h
    trivial
  | float x =>
    obtain ⟨_, rfl⟩ := ofFloat_eq_ok h
    trivial
  | moment m =>
    obtain ⟨t, rfl⟩ := ofValueAt_moment_eq_ok h
    trivial
  | date | entry | foreign | endless => cases h
  | member m v ih =>
    obtain ⟨_, h⟩ := ofValueAt_member_eq_ok_iff.mp h
    exact ih hv h
  | record type fields =>
    obtain ⟨j, hj, h⟩ := ofValueAt_record_eq_ok_iff.mp h
    rw [toJson_ofJson h]
    exact Dump.distinctKeys_of_value (v := .record type fields) hv hj
  | list items ih =>
    obtain ⟨_, cs, hcs, rfl⟩ := ofValueAt_list_eq_ok_iff.mp h
    have hitems := (Value.itemsWellformed_iff items).mp hv
    exact distinctKeys_list (forall₂_ofItems hcs) fun v hmem c p => ih v hmem (hitems v hmem)
  | tuple items ih =>
    rw [ofValueAt_tuple] at h
    obtain ⟨_, cs, hcs, rfl⟩ := ofValueAt_list_eq_ok_iff.mp h
    have hitems := (Value.itemsWellformed_iff items).mp hv
    exact distinctKeys_list (forall₂_ofItems hcs) fun v hmem c p => ih v hmem (hitems v hmem)
  | dict entries ih =>
    obtain ⟨_, ms, hms, rfl⟩ := ofValueAt_dict_eq_ok_iff.mp h
    have hentries := (Value.entriesWellformed_iff entries).mp hv.2
    rw [toJson_object, Json.distinctKeys_object_iff]
    -- Keys that are the same text would be the same key, and a wellformed dictionary has none twice.
    refine ⟨nodup_keys_of_entries hv.1 hms, ?_⟩
    intro n hn
    obtain ⟨m, hmem, rfl⟩ := List.mem_map.mp hn
    obtain ⟨e, he, _, hvalue⟩ := exists_of_mem_right ((ofEntries_eq_ok_iff _ _).mp hms) hmem
    exact (ih e he).2 (hentries e he) hvalue

end OfValue

end Canonical

end CanonStore
