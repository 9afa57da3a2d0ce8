import CanonStore.Canonical.Digest
import CanonStore.Proofs.Canonical.Text
import CanonStore.Proofs.Schema.Order
import Mathlib.Data.List.Permutation

/-!
# The order of entries and canonical texts

Outside of records the keys of a value with a canonical text are distinct texts, so the order of entries
never shows; inside a record it may (`Dump.OrderFree`). Main statement: `canonicalEquals_iff_same`. Two
values are canonically equal exactly if their documents are the same, and the text of a value survives
every reordering exactly if all records in it are free of order.
-/

namespace CanonStore

open Json (Same)

namespace Value

mutual

/-- The order of entries does not show in the canonical text of the value. -/
def OrderFree : Value → Prop
  | .member _ v => OrderFree v
  | .list items | .tuple items => ItemsOrderFree items
  | .dict entries => EntriesOrderFree entries
  | .record type fields => Dump.OrderFree type.isDurable Dump.maxDepth (.record type fields)
  | _ => True

/-- All items are free of order. -/
def ItemsOrderFree : List Value → Prop
  | [] => True
  | v :: rest => OrderFree v ∧ ItemsOrderFree rest

/-- The values of all entries are free of order. -/
def EntriesOrderFree : List (Value × Value) → Prop
  | [] => True
  | (_, v) :: rest => OrderFree v ∧ EntriesOrderFree rest

end

theorem itemsOrderFree_iff (items : List Value) :
    ItemsOrderFree items ↔ ∀ v ∈ items, OrderFree v :=
  iff_forall_mem_of_cons trivial (fun _ _ => Iff.rfl) items

theorem entriesOrderFree_iff (entries : List (Value × Value)) :
    EntriesOrderFree entries ↔ ∀ e ∈ entries, OrderFree e.2 :=
  iff_forall_mem_of_cons trivial (fun _ _ => Iff.rfl) entries

end Value

namespace Canonical

open Value (Permuted)

/-! ## Any order gives the document -/

/-- Two values have trees of the same document, if the first has one that can be written. -/
def SameTree (depth : Nat) (v w : Value) : Prop :=
  ∀ ⦃place : Location⦄ ⦃c : Canonical⦄, ofValueAt depth place v = .ok c → c.toJson.hasOversized = false →
    ∃ d, ofValueAt depth place w = .ok d ∧ Same c.toJson d.toJson

section SameParts

variable {depth : Nat}

/-- Items of the same trees have the same trees together. -/
theorem ofItems_same {place : Location} {index : Nat} {vs ws : List Value}
    (h : List.Forall₂ (SameTree depth) vs ws) {cs : List Canonical}
    (hcs : ofItems depth place index vs = .ok cs) (hsize : ∀ c ∈ cs, c.toJson.hasOversized = false) :
    ∃ ds, ofItems depth place index ws = .ok ds ∧ List.Forall₂ (fun c d => Same c.toJson d.toJson) cs ds := by
  induction h generalizing index cs with
  | nil =>
    cases hcs
    exact ⟨[], rfl, .nil⟩
  | cons hvw _ ih =>
    obtain ⟨c, hc, hcs⟩ := bind_eq_ok_iff.mp hcs
    obtain ⟨cs, htail, hcs⟩ := bind_eq_ok_iff.mp hcs
    cases hcs
    obtain ⟨hfirst, hsize⟩ := List.forall_mem_cons.mp hsize
    obtain ⟨d, hd, hsame⟩ := hvw hc hfirst
    obtain ⟨ds, hds, hsames⟩ := ih htail hsize
    exact ⟨d :: ds, walk_eq_ok_iff.mpr ⟨d, ds, rfl, ⟨d, hd, rfl⟩, hds⟩, .cons hsame hsames⟩

theorem sameTree_list {vs ws : List Value} (h : List.Forall₂ (SameTree (depth - 1)) vs ws) :
    SameTree depth (.list vs) (.list ws) := by
  intro place c hc hsize
  obtain ⟨hd, cs, hcs, rfl⟩ := ofValueAt_list_eq_ok_iff.mp hc
  rw [toJson_list, Json.hasOversized_list_eq_false, List.forall_mem_map] at hsize
  obtain ⟨ds, hds, hsame⟩ := ofItems_same h hcs hsize
  refine ⟨.list ds, ofValueAt_list_eq_ok_iff.mpr ⟨hd, ds, hds, rfl⟩, ?_⟩
  rw [toJson_list, toJson_list, Json.same_list_iff]
  exact List.forall₂_map_left_iff.mpr (List.forall₂_map_right_iff.mpr hsame)

theorem sameTree_tuple {vs ws : List Value} (h : List.Forall₂ (SameTree (depth - 1)) vs ws) :
    SameTree depth (.tuple vs) (.tuple ws) := by
  intro place c hc hsize
  rw [ofValueAt_tuple] at hc ⊢
  exact sameTree_list h hc hsize

theorem sameTree_dict {es ordered fs : List (Value × Value)}
    (h : List.Forall₂ (fun e f => e.1 = f.1 ∧ SameTree (depth - 1) e.2 f.2) es ordered)
    (hperm : ordered.Perm fs) : SameTree depth (.dict es) (.dict fs) := by
  intro place c hc hsize
  obtain ⟨hd, ms, hms, rfl⟩ := ofValueAt_dict_eq_ok_iff.mp hc
  rw [toJson_object, Json.hasOversized_object_eq_false, List.forall_mem_map] at hsize
  have hsized := forall₂_and_mem ((ofEntries_eq_ok_iff es ms).mp hms)
  -- Trees for the other entries in the order of these, then in their own.
  have hparts : ∃ ds : List (Label × Canonical),
      List.Forall₂ (fun f d => Label.ofValue? f.1 = some d.1 ∧
        ofValueAt (depth - 1) (place.key d.1) f.2 = .ok d.2) ordered ds ∧
      List.Forall₂ (fun m d => m.1.text = d.1.text ∧ Same m.2.toJson d.2.toJson) ms ds := by
    apply forall₂_transport h hsized
    intro e he f m hef hm
    obtain ⟨⟨hlabel, hvalue⟩, hmem⟩ := hm
    obtain ⟨d, hd, hsame⟩ := hef.2 hvalue (hsize m hmem)
    exact ⟨(m.1, d), ⟨hef.1 ▸ hlabel, hd⟩, rfl, hsame⟩
  obtain ⟨ds, hds, hsame⟩ := hparts
  obtain ⟨ns, hns, hns'⟩ := List.perm_comp_forall₂ hperm.symm hds
  refine ⟨.object ns, ofValueAt_dict_eq_ok_iff.mpr ⟨hd, ns, (ofEntries_eq_ok_iff fs ns).mpr hns, rfl⟩, ?_⟩
  rw [toJson_object, toJson_object, Json.same_object_iff]
  refine ⟨ds.map (Prod.map Label.text toJson), ?_, (hns'.map _).symm⟩
  exact List.forall₂_map_left_iff.mpr (List.forall₂_map_right_iff.mpr hsame)

theorem sameTree_record {type : RecordType} {fs gs : List (Text × Value)}
    (h : Dump.SameDocument type.isDurable Dump.maxDepth (.record type fs) (.record type gs)) :
    SameTree depth (.record type fs) (.record type gs) := by
  intro place c hc hsize
  obtain ⟨j, hj, hc⟩ := ofValueAt_record_eq_ok_iff.mp hc
  -- The other document is as readable, so it has a tree as well.
  obtain ⟨k, hk, hsame⟩ := h hj
  rw [toJson_ofJson hc] at hsize ⊢
  obtain ⟨d, hd⟩ := exists_ofJson (hsame.readable (readable_ofJson hc hsize)) place
  refine ⟨d, ofValueAt_record_eq_ok_iff.mpr ⟨k, hk, hd⟩, ?_⟩
  rwa [toJson_ofJson hd]

end SameParts

/-- In whatever order the entries of such a value stand, its tree has the same document. -/
theorem sameTree_of_permuted {v w : Value} (h : Permuted v w) (hv : v.OrderFree) (depth : Nat) :
    SameTree depth v w := by
  induction v generalizing w depth with
  | null | bool | int | float | text | textMember | intMember | bytes | bytearray | moment | date
  | foreign | endless =>
    intro place c hc _
    cases w <;> cases h
    exact ⟨c, hc, .refl _⟩
  | entry =>
    intro place c hc
    cases hc
  | member m v ih =>
    cases w with
    | member n w =>
      intro place c hc hsize
      obtain ⟨hd, hc⟩ := ofValueAt_member_eq_ok_iff.mp hc
      obtain ⟨d, hd', hsame⟩ := ih h.2 hv (depth - 1) hc hsize
      exact ⟨d, ofValueAt_member_eq_ok_iff.mpr ⟨hd, hd'⟩, hsame⟩
    | _ => cases h
  | list vs ih =>
    cases w with
    | list ws =>
      have hitems := (Value.itemsOrderFree_iff vs).mp hv
      exact sameTree_list (forall₂_imp_of_mem ((Value.itemsPermuted_iff vs ws).mp h)
        fun v hmem _ hvw => ih v hmem hvw (hitems v hmem) (depth - 1))
    | _ => cases h
  | tuple vs ih =>
    cases w with
    | tuple ws =>
      have hitems := (Value.itemsOrderFree_iff vs).mp hv
      exact sameTree_tuple (forall₂_imp_of_mem ((Value.itemsPermuted_iff vs ws).mp h)
        fun v hmem _ hvw => ih v hmem hvw (hitems v hmem) (depth - 1))
    | _ => cases h
  | dict es ih =>
    cases w with
    | dict fs =>
      have hentries := (Value.entriesOrderFree_iff es).mp hv
      obtain ⟨ordered, hpairs, hperm⟩ := (Value.entriesPermuted_iff es fs).mp h
      exact sameTree_dict (forall₂_imp_of_mem hpairs fun e he f hef =>
        ⟨hef.1, (ih e he).2 hef.2 (hentries e he) (depth - 1)⟩) hperm
    | _ => cases h
  | record type fs =>
    cases w with
    | record t gs =>
      -- Inside the record the order may show, so it is the document that has to be free of it.
      have hpermuted := h
      obtain ⟨rfl, _⟩ := h
      exact sameTree_record (Dump.sameDocument_of_permuted hpermuted hv)
    | _ => cases h

/-! ## Only then -/

/-- Whatever order its entries have, the value has a tree of the same document. -/
def KeepsTree (depth : Nat) (v : Value) (c : Canonical) : Prop :=
  ∀ w, Permuted v w → ∃ place d, ofValueAt depth place w = .ok d ∧ Same c.toJson d.toJson

section Keeps

variable {depth : Nat}

theorem KeepsTree.items {place : Location} {vs : List Value} {cs : List Canonical}
    (hcs : ofItems (depth - 1) place 0 vs = .ok cs) (h : KeepsTree depth (.list vs) (.list cs)) :
    List.Forall₂ (fun v c => (∃ p, ofValueAt (depth - 1) p v = .ok c) ∧
      ∀ w, Permuted v w → ∃ d, (∃ p, ofValueAt (depth - 1) p w = .ok d) ∧ Same c.toJson d.toJson) vs cs := by
  apply forall₂_of_replaced Permuted.refl (forall₂_ofItems hcs)
  intro ws hws
  obtain ⟨p, d, hd, hsame⟩ := h (.list ws) ((Value.itemsPermuted_iff vs ws).mpr hws)
  obtain ⟨_, ds, hds, rfl⟩ := ofValueAt_list_eq_ok_iff.mp hd
  refine ⟨ds, forall₂_ofItems hds, ?_⟩
  rw [toJson_list, toJson_list, Json.same_list_iff] at hsame
  exact List.forall₂_map_right_iff.mp (List.forall₂_map_left_iff.mp hsame)

theorem KeepsTree.list_of_tuple {vs : List Value} {c : Canonical} (h : KeepsTree depth (.tuple vs) c) :
    KeepsTree depth (.list vs) c := by
  intro w hw
  cases w with
  | list ws =>
    obtain ⟨place, d, hd, hsame⟩ := h (.tuple ws) hw
    exact ⟨place, d, ofValueAt_tuple ws ▸ hd, hsame⟩
  | _ => cases hw

theorem KeepsTree.entry {place : Location} {es : List (Value × Value)}
    (hes : es.Pairwise fun e f => Value.sameAs e.1 f.1 = false) {ms : List (Label × Canonical)}
    (hms : ofEntries (depth - 1) place es = .ok ms) (h : KeepsTree depth (.dict es) (.object ms))
    {e : Value × Value} (he : e ∈ es) {m : Label × Canonical} (hm : m ∈ ms)
    (hlabel : Label.ofValue? e.1 = some m.1) : KeepsTree (depth - 1) e.2 m.2 := by
  intro w hw
  -- The entry is moved to the end with its new value; no other order of them is needed.
  obtain ⟨rest, hperm⟩ := Value.exists_entriesPermuted_concat he hw
  obtain ⟨p, d, hd, hsame⟩ := h (.dict (rest ++ [(e.1, w)])) hperm
  obtain ⟨_, ns, hns, rfl⟩ := ofValueAt_dict_eq_ok_iff.mp hd
  obtain ⟨n, hn, hkey, hvalue⟩ := exists_of_mem_left ((ofEntries_eq_ok_iff _ _).mp hns)
    (List.mem_append_right rest (List.mem_singleton_self (e.1, w)))
  -- Outside of records keys do not repeat, so the member of this label is the one of this entry.
  have heq : n.1 = m.1 := Option.some.inj (hkey.symm.trans hlabel)
  rw [toJson_object, toJson_object] at hsame
  have hmember := List.mem_map_of_mem (f := Prod.map Label.text toJson) hm
  have hother := List.mem_map_of_mem (f := Prod.map Label.text toJson) hn
  rw [Prod.map_apply', heq] at hother
  exact ⟨_, n.2, hvalue,
    (Json.same_of_mem hsame.symm (nodup_keys_of_entries hes hms) hother hmember).symm⟩

theorem KeepsTree.record {type : RecordType} {fs : List (Text × Value)} {c : Canonical}
    (h : KeepsTree depth (.record type fs) c) :
    Dump.KeepsDocument type.isDurable Dump.maxDepth none (.record type fs) c.toJson := by
  intro w hw
  cases w with
  | record t gs =>
    obtain rfl : type = t := hw.1
    obtain ⟨p, d, hd, hsame⟩ := h (.record type gs) hw
    obtain ⟨k, hk, hd⟩ := ofValueAt_record_eq_ok_iff.mp hd
    exact ⟨k, hk, toJson_ofJson hd ▸ hsame⟩
  | _ => cases hw

/-- The items of a list are free of order if that holds of everything that keeps its tree. -/
theorem itemsOrderFree_of_keepsTree {place : Location} {vs : List Value} {c : Canonical}
    (hitem : ∀ v ∈ vs, ∀ p d, ofValueAt (depth - 1) p v = .ok d → KeepsTree (depth - 1) v d → v.OrderFree)
    (hc : ofValueAt depth place (.list vs) = .ok c) (h : KeepsTree depth (.list vs) c) :
    Value.ItemsOrderFree vs := by
  obtain ⟨_, cs, hcs, rfl⟩ := ofValueAt_list_eq_ok_iff.mp hc
  apply (Value.itemsOrderFree_iff vs).mpr
  intro v hmem
  obtain ⟨c, _, ⟨p, hp⟩, hkeeps⟩ := exists_of_mem_left (h.items hcs) hmem
  apply hitem v hmem p c hp
  intro w hw
  obtain ⟨d, ⟨q, hq⟩, hsame⟩ := hkeeps w hw
  exact ⟨q, d, hq, hsame⟩

end Keeps

/-- The order of entries can not show only if the records are free of order. -/
theorem orderFree_of_permuted {v : Value} (hv : v.Wellformed) {depth : Nat} {place : Location}
    {c : Canonical} (hc : ofValueAt depth place v = .ok c) (h : KeepsTree depth v c) : v.OrderFree := by
  induction v generalizing depth place c with
  | null | bool | int | float | text | textMember | intMember | bytes | bytearray | moment | date
  | foreign | endless | entry => trivial
  | member m v ih =>
    obtain ⟨_, hc⟩ := ofValueAt_member_eq_ok_iff.mp hc
    apply ih hv hc
    intro w hw
    obtain ⟨p, d, hd, hsame⟩ := h (.member m w) ⟨rfl, hw⟩
    exact ⟨p, d, (ofValueAt_member_eq_ok_iff.mp hd).2, hsame⟩
  | list vs ih =>
    have hvs := (Value.itemsWellformed_iff vs).mp hv
    exact itemsOrderFree_of_keepsTree (fun v hmem _ _ => ih v hmem (hvs v hmem)) hc h
  | tuple vs ih =>
    -- A tuple has the tree of the list of its items.
    rw [ofValueAt_tuple] at hc
    have hvs := (Value.itemsWellformed_iff vs).mp hv
    exact itemsOrderFree_of_keepsTree (fun v hmem _ _ => ih v hmem (hvs v hmem)) hc h.list_of_tuple
  | dict es ih =>
    obtain ⟨_, ms, hms, rfl⟩ := ofValueAt_dict_eq_ok_iff.mp hc
    have hes := (Value.entriesWellformed_iff es).mp hv.2
    apply (Value.entriesOrderFree_iff es).mpr
    intro e he
    obtain ⟨m, hm, hlabel, hvalue⟩ := exists_of_mem_left ((ofEntries_eq_ok_iff es ms).mp hms) he
    exact (ih e he).2 (hes e he) hvalue (h.entry hv.1 hms he hm hlabel)
  | record type fs =>
    -- The tree of a record is read from its document, so this is the statement about documents.
    obtain ⟨j, hj, hc⟩ := ofValueAt_record_eq_ok_iff.mp hc
    have hkeeps := h.record
    rw [toJson_ofJson hc] at hkeeps
    exact Dump.orderFree_of_permuted hv hj hkeeps

end Canonical

namespace Value

/-! ## Texts and digests -/

/-- Values with one canonical text have one digest, or none. -/
theorem canonicalDigest_eq {v w : Value} {t : Text} (hv : v.canonicalText = .ok t)
    (hw : w.canonicalText = .ok t) : w.canonicalDigest = v.canonicalDigest := by
  rw [canonicalDigest, canonicalDigest, hv, hw]

/-- A value that is free of order has one canonical text in every order. -/
theorem canonicalText_of_permuted {v w : Value} (hv : v.Wellformed) (hfree : v.OrderFree)
    (h : v.Permuted w) {t : Text} (ht : v.canonicalText = .ok t) : w.canonicalText = .ok t := by
  obtain ⟨c, hc, hread, hkeys, rfl⟩ := exists_document hv ht
  obtain ⟨d, hd, hsame⟩ :=
    Canonical.sameTree_of_permuted h hfree Canonical.maxDepth hc hread.hasOversized_eq_false
  refine canonicalText_eq_ok_iff.mpr ⟨d, hd, (hsame.readable hread).hasOversized_eq_false, ?_⟩
  rw [Json.write, Json.write, hsame.sorted_eq hkeys]

/-- A value that has one canonical text in every order is free of order. -/
theorem orderFree_of_canonicalText {v : Value} (hv : v.Wellformed) {t : Text}
    (ht : v.canonicalText = .ok t) (h : ∀ w, v.Permuted w → w.canonicalText = .ok t) : v.OrderFree := by
  obtain ⟨c, hc, _⟩ := canonicalText_eq_ok_iff.mp ht
  apply Canonical.orderFree_of_permuted hv hc
  intro w hw
  obtain ⟨d, hd, _⟩ := canonicalText_eq_ok_iff.mp (h w hw)
  exact ⟨.root, d, hd, (canonicalText_eq_iff hv ht (h w hw) hc hd).mp rfl⟩

/-- Two values with canonical texts are canonically equal exactly if their documents are the same. The
order of entries does not show in text and digest exactly if no record holds entries under one text whose
documents differ. -/
theorem canonicalEquals_iff_same {v : Value} (hv : v.Wellformed) {t : Text}
    (ht : v.canonicalText = .ok t) :
    (∀ w u, w.canonicalText = .ok u →
      ∃ c d, Canonical.ofValue .root v = .ok c ∧ Canonical.ofValue .root w = .ok d ∧
        (v.canonicalEquals w = .ok true ↔ c.toJson.Same d.toJson)) ∧
    ((∀ w, v.Permuted w → w.canonicalText = .ok t ∧ w.canonicalDigest = v.canonicalDigest) ↔
      v.OrderFree) := by
  constructor
  · intro w u hu
    obtain ⟨c, hc, _⟩ := canonicalText_eq_ok_iff.mp ht
    obtain ⟨d, hd, _⟩ := canonicalText_eq_ok_iff.mp hu
    refine ⟨c, d, hc, hd, ?_⟩
    rw [canonicalEquals_of_texts ht hu]
    exact canonicalText_eq_iff hv ht hu hc hd
  · constructor
    · intro h
      exact orderFree_of_canonicalText hv ht fun w hw => (h w hw).1
    · intro hfree w hw
      have htext := canonicalText_of_permuted hv hfree hw ht
      exact ⟨htext, canonicalDigest_eq ht htext⟩

/-- A dictionary whose entries stand in the wrong order. -/
theorem canonicalEquals_iff_same_entries :
    ∃ v : Value, v = .dict [(.text "b", .null), (.text "a", .list [.bool true])] ∧
      (∀ w u, w.canonicalText = .ok u →
        ∃ c d, Canonical.ofValue .root v = .ok c ∧ Canonical.ofValue .root w = .ok d ∧
          (v.canonicalEquals w = .ok true ↔ c.toJson.Same d.toJson)) ∧
      ((∀ w, v.Permuted w → w.canonicalText = .ok "\x7b\"a\":[true],\"b\":null\x7d" ∧
        w.canonicalDigest = v.canonicalDigest) ↔ v.OrderFree) :=
  ⟨_, rfl, canonicalEquals_iff_same (by decide) rfl⟩

/-- A record that holds a number and the text of that number as keys: the entry that comes last remains. -/
theorem canonicalEquals_permuted_eq_false :
    ∃ v w : Value,
      v = .record .node [("data", .dict [(.text "x", .dict [(.int 1, .text "a"), (.text "1", .text "b")])])] ∧
      w = .record .node [("data", .dict [(.text "x", .dict [(.text "1", .text "b"), (.int 1, .text "a")])])] ∧
      v.Permuted w ∧ v.canonicalText = .ok "\x7b\"data\":\x7b\"x\":\x7b\"1\":\"b\"\x7d\x7d\x7d" ∧
      w.canonicalText = .ok "\x7b\"data\":\x7b\"x\":\x7b\"1\":\"a\"\x7d\x7d\x7d" ∧
      v.canonicalEquals w = .ok false := by
  refine ⟨_, _, rfl, rfl, ⟨rfl, _, [], rfl, ?_, rfl⟩, by cbv, by cbv, by cbv⟩
  refine ⟨[], _, [], rfl, ?_, rfl⟩
  exact ⟨[(.text "1", .text "b")], _, [], rfl, rfl, [], _, [], rfl, rfl, rfl⟩

end Value

end CanonStore
