import CanonStore.Proofs.Canonical.Text

/-!
# What is canonical already

Canonicalization leaves its own results as they are. A value with a tree `Settles` in it: it has this tree
wherever it stands and however many more containers may be opened, and so has the tree when it is taken for a
value (`settles_ofValueAt`). Main statement: `canonical_idempotent`. A value and its tree have one canonical
text, and the document that is read from this text has the same text again.
-/

namespace CanonStore

namespace Canonical

theorem toValue_list (cs : List Canonical) : toValue (.list cs) = .list (cs.map toValue) := by
  have hitems : itemsToValues cs = cs.map toValue := eq_map_of_cons rfl (fun _ _ => rfl) cs
  exact congrArg Value.list hitems

theorem toValue_object (ms : List (Label × Canonical)) :
    toValue (.object ms) = .dict (ms.map (Prod.map Label.toValue toValue)) := by
  have hmembers : membersToEntries ms = ms.map (Prod.map Label.toValue toValue) :=
    eq_map_of_cons rfl (fun _ _ => rfl) ms
  exact congrArg Value.dict hmembers

/-- A label that is taken for a key is found again. -/
theorem ofValue?_toValue (l : Label) : Label.ofValue? l.toValue = some l := by
  cases l with
  | plain t => rfl
  | member m t => rfl

/-! ## One tree at every place -/

/-- Wherever the value stands, it has this tree if at least `depth` more containers may be opened. -/
def Rests (depth : Nat) (v : Value) (c : Canonical) : Prop :=
  ∀ more, depth ≤ more → ∀ place, ofValueAt more place v = .ok c

/-- The value rests in the tree, and so does the tree as a value. -/
structure Settles (depth : Nat) (v : Value) (c : Canonical) : Prop where
  value : Rests depth v c
  tree : Rests depth c.toValue c

section Settles

variable {depth : Nat} {place : Location} {v : Value} {c : Canonical}

theorem Rests.mono (h : Rests depth v c) {more : Nat} (hle : depth ≤ more) : Rests more v c := by
  intro most hmost place
  exact h most (Nat.le_trans hle hmost) place

/-- Items that have their trees at every place have them in a row, whatever index the row starts with. -/
theorem ofItems_of_forall₂ {vs : List Value} {cs : List Canonical}
    (h : List.Forall₂ (fun v c => ∀ p, ofValueAt depth p v = .ok c) vs cs) (place : Location) (index : Nat) :
    ofItems depth place index vs = .ok cs := by
  induction h generalizing index with
  | nil => rfl
  | @cons v c vs cs hv _ ih =>
    apply walk_eq_ok_iff.mpr
    exact ⟨c, cs, rfl, ⟨c, hv (place.item index), rfl⟩, ih (index + 1)⟩

theorem rests_list {vs : List Value} {cs : List Canonical} (hd : depth ≠ 0)
    (h : List.Forall₂ (Rests (depth - 1)) vs cs) : Rests depth (.list vs) (.list cs) := by
  intro more hle place
  have hitems : List.Forall₂ (fun v c => ∀ p, ofValueAt (more - 1) p v = .ok c) vs cs :=
    h.imp fun v c hv => hv (more - 1) (Nat.sub_le_sub_right hle 1)
  apply ofValueAt_list_eq_ok_iff.mpr
  exact ⟨by omega, cs, ofItems_of_forall₂ hitems place 0, rfl⟩

theorem rests_dict {es : List (Value × Value)} {ms : List (Label × Canonical)} (hd : depth ≠ 0)
    (h : List.Forall₂ (fun e m => Label.ofValue? e.1 = some m.1 ∧ Rests (depth - 1) e.2 m.2) es ms) :
    Rests depth (.dict es) (.object ms) := by
  intro more hle place
  apply ofValueAt_dict_eq_ok_iff.mpr
  refine ⟨by omega, ms, ?_, rfl⟩
  apply (ofEntries_eq_ok_iff es ms).mpr
  apply h.imp
  rintro e m ⟨hlabel, hvalue⟩
  exact ⟨hlabel, hvalue (more - 1) (Nat.sub_le_sub_right hle 1) _⟩

theorem settles_list {vs : List Value} {cs : List Canonical} (hd : depth ≠ 0)
    (h : List.Forall₂ (Settles (depth - 1)) vs cs) : Settles depth (.list vs) (.list cs) where
  value := rests_list hd (h.imp fun _ _ hv => hv.value)
  tree := by
    rw [toValue_list]
    apply rests_list hd
    apply List.forall₂_map_left_iff.mpr
    apply List.forall₂_same.mpr
    intro c hc
    obtain ⟨v, _, hv⟩ := exists_of_mem_right h hc
    exact hv.tree

theorem settles_dict {es : List (Value × Value)} {ms : List (Label × Canonical)} (hd : depth ≠ 0)
    (h : List.Forall₂ (fun e m => Label.ofValue? e.1 = some m.1 ∧ Settles (depth - 1) e.2 m.2) es ms) :
    Settles depth (.dict es) (.object ms) where
  value := rests_dict hd (h.imp fun _ _ he => ⟨he.1, he.2.value⟩)
  tree := by
    rw [toValue_object]
    apply rests_dict hd
    apply List.forall₂_map_left_iff.mpr
    apply List.forall₂_same.mpr
    intro m hm
    obtain ⟨e, _, _, he⟩ := exists_of_mem_right h hm
    exact ⟨ofValue?_toValue m.1, he.tree⟩

/-- A value whose tree does not depend on place or depth. -/
theorem settles_of_rests (h : Rests 0 v c) (htree : c.toValue = v) : Settles depth v c where
  value := h.mono (Nat.zero_le depth)
  tree := htree ▸ h.mono (Nat.zero_le depth)

theorem settles_float {x : Binary64} (h : ofFloat place x = .ok c) : Settles depth (.float x) c := by
  obtain ⟨hx, rfl⟩ := ofFloat_eq_ok h
  refine settles_of_rests ?_ rfl
  intro more _ p
  exact if_pos hx

theorem settles_items {vs : List Value} (h : ofValueAt depth place (.list vs) = .ok c)
    (ih : ∀ v ∈ vs, ∀ {p d}, ofValueAt (depth - 1) p v = .ok d → Settles (depth - 1) v d) :
    Settles depth (.list vs) c := by
  obtain ⟨hd, cs, hcs, rfl⟩ := ofValueAt_list_eq_ok_iff.mp h
  apply settles_list hd
  apply forall₂_imp_of_mem (forall₂_ofItems hcs)
  rintro v hv d ⟨p, hp⟩
  exact ih v hv hp

theorem settles_entries {es : List (Value × Value)} (h : ofValueAt depth place (.dict es) = .ok c)
    (ih : ∀ e ∈ es, ∀ {p d}, ofValueAt (depth - 1) p e.2 = .ok d → Settles (depth - 1) e.2 d) :
    Settles depth (.dict es) c := by
  obtain ⟨hd, ms, hms, rfl⟩ := ofValueAt_dict_eq_ok_iff.mp h
  apply settles_dict hd
  apply forall₂_imp_of_mem ((ofEntries_eq_ok_iff es ms).mp hms)
  rintro e he m ⟨hlabel, hm⟩
  exact ⟨hlabel, ih e he hm⟩

/-- A document that has a tree settles in it. -/
theorem settles_document {j : Json} (h : ofValueAt depth place j.toValue = .ok c) :
    Settles depth j.toValue c := by
  -- By induction on the document, since the value is only its image.
  induction j generalizing depth place c with
  | null | bool | int | text =>
    cases h
    exact settles_of_rests (fun _ _ _ => rfl) rfl
  | float x => exact settles_float h
  | list items ih =>
    rw [Json.toValue_list] at h ⊢
    apply settles_items h
    intro v hv p d
    obtain ⟨j, hj, rfl⟩ := List.mem_map.mp hv
    exact ih j hj
  | object members ih =>
    rw [Json.toValue_object] at h ⊢
    apply settles_entries h
    intro e he p d
    obtain ⟨m, hm, rfl⟩ := List.mem_map.mp he
    exact ih m hm

/-- A value that has a tree settles in it. -/
theorem settles_ofValueAt (h : ofValueAt depth place v = .ok c) : Settles depth v c := by
  induction v generalizing depth place c with
  | null | bool | int | intMember | text | textMember =>
    cases h
    exact settles_of_rests (fun _ _ _ => rfl) rfl
  | float x => exact settles_float h
  | bytes b | bytearray b =>
    cases h
    exact ⟨fun _ _ _ => rfl, fun _ _ _ => rfl⟩
  | moment m =>
    obtain ⟨t, rfl⟩ := ofValueAt_moment_eq_ok h
    exact ⟨fun _ _ _ => h, fun _ _ _ => rfl⟩
  | date | entry | foreign | endless => cases h
  | member m v ih =>
    -- The member may open one container more than what it stands for.
    obtain ⟨hd, h⟩ := ofValueAt_member_eq_ok_iff.mp h
    obtain ⟨hvalue, htree⟩ := ih h
    refine ⟨?_, htree.mono (Nat.sub_le depth 1)⟩
    intro more hle p
    apply ofValueAt_member_eq_ok_iff.mpr
    exact ⟨by omega, hvalue (more - 1) (Nat.sub_le_sub_right hle 1) p⟩
  | record type fields =>
    obtain ⟨j, hj, h⟩ := ofValueAt_record_eq_ok_iff.mp h
    rw [← ofValueAt_toValue] at h
    obtain ⟨hvalue, htree⟩ := settles_document h
    refine ⟨?_, htree⟩
    intro more hle p
    apply ofValueAt_record_eq_ok_iff.mpr
    exact ⟨j, hj, ofValueAt_toValue j ▸ hvalue more hle p⟩
  | list items ih => exact settles_items h fun v hv _ _ => ih v hv
  | tuple items ih =>
    obtain ⟨hvalue, htree⟩ := settles_items (ofValueAt_tuple items ▸ h) fun v hv _ _ => ih v hv
    exact ⟨hvalue, htree⟩
  | dict entries ih => exact settles_entries h fun e he => (ih e he).2

end Settles

end Canonical

namespace Value

open Canonical (settles_ofValueAt)

/-- The canonical text comes from the tree, or there is none because an integer in the tree is too long. -/
theorem canonicalText_of_ofValue {v : Value} {c : Canonical} (h : Canonical.ofValue .root v = .ok c) :
    v.canonicalText = if c.toJson.hasOversized then .error (.oversized v.typeName) else .ok c.toJson.write := by
  rw [canonicalText, h]
  rfl

/-- The document that a canonical text is read as has that text again. -/
theorem canonicalText_read {v : Value} (hv : v.Wellformed) {t : Text} (ht : v.canonicalText = .ok t) :
    ∃ j, Json.read t = .ok j ∧ j.toValue.canonicalText = .ok t := by
  obtain ⟨c, _, hread, hkeys, rfl⟩ := exists_document hv ht
  refine ⟨c.toJson.sorted, Json.read_write hread.loads hkeys, ?_⟩
  apply canonicalText_toValue_eq_ok_iff.mpr
  refine ⟨Json.readable_sorted hread, ?_⟩
  -- Sorting once is enough.
  have hsorted : c.toJson.sorted = c.toJson.sorted.sorted :=
    (Json.same_iff_sorted_eq hkeys).mp (Json.same_sorted _)
  show Json.compact _ = Json.compact _
  rw [← hsorted]

/-- A value that has a canonical form at some place. The canonical form is its own canonical form at every
place. It has the canonical text of the value, or both are refused for an integer that is too long. The document
that is read from the text has this text once more. -/
theorem canonical_idempotent {v : Value} (hv : v.Wellformed) {p : Location} {c : Canonical}
    (hc : Canonical.ofValue p v = .ok c) :
    (∀ q, Canonical.ofValue q c.toValue = .ok c) ∧
    ((∃ t, v.canonicalText = .ok t ∧ c.toValue.canonicalText = .ok t) ∨
      v.canonicalText = .error (.oversized v.typeName) ∧
        c.toValue.canonicalText = .error (.oversized c.toValue.typeName)) ∧
    ∀ t, v.canonicalText = .ok t → ∃ j, Json.read t = .ok j ∧ j.toValue.canonicalText = .ok t := by
  obtain ⟨hvalue, htree⟩ := settles_ofValueAt hc
  have hstays : ∀ q, Canonical.ofValue q c.toValue = .ok c := htree Canonical.maxDepth (Nat.le_refl _)
  have htext := canonicalText_of_ofValue (hvalue Canonical.maxDepth (Nat.le_refl _) .root)
  have htext' := canonicalText_of_ofValue (hstays .root)
  refine ⟨hstays, ?_, fun t ht => canonicalText_read hv ht⟩
  -- Too large an integer stands in both trees or in none, as they are the same tree.
  cases hsize : c.toJson.hasOversized with
  | true =>
    rw [hsize] at htext htext'
    exact .inr ⟨htext, htext'⟩
  | false =>
    rw [hsize] at htext htext'
    exact .inl ⟨c.toJson.write, htext, htext'⟩

/-- Octets and a member that stands for a dictionary, in a tuple below a key that is a member, at a place that is
not the root. -/
theorem canonical_idempotent_members :
    ∃ v c t, v = Value.dict [(.textMember ⟨"Key", "A"⟩ "a",
        .tuple [.member ⟨"Color", "MAP"⟩ (.dict [(.text "b", .null)]), .bytes [0, 255]])] ∧
      c = Canonical.object [(.member ⟨"Key", "A"⟩ "a",
        .list [.object [(.plain "b", .null)], .text (.plain "AP8=")])] ∧
      t = Text.ofString "\x7b\"a\":[\x7b\"b\":null\x7d,\"AP8=\"]\x7d" ∧
      v.Wellformed ∧ Canonical.ofValue (.plain "p") v = .ok c ∧
      (∀ q, Canonical.ofValue q c.toValue = .ok c) ∧ v.canonicalText = .ok t ∧ c.toValue.canonicalText = .ok t ∧
      ∃ j, Json.read t = .ok j ∧ j.toValue.canonicalText = .ok t := by
  refine ⟨_, _, _, rfl, rfl, rfl, ?_⟩
  generalize hv : Value.dict _ = v
  generalize hc : Canonical.object _ = c
  have hwell : v.Wellformed := by
    rw [← hv]
    decide
  have htree : Canonical.ofValue (.plain "p") v = .ok c := by
    rw [← hv, ← hc]
    rfl
  have htext : v.canonicalText = .ok "\x7b\"a\":[\x7b\"b\":null\x7d,\"AP8=\"]\x7d" := by
    rw [← hv]
    rfl
  obtain ⟨hstays, hsame, hread⟩ := canonical_idempotent hwell htree
  rcases hsame with ⟨t, ht, ht'⟩ | ⟨hnone, _⟩
  · cases htext.symm.trans ht
    exact ⟨hwell, htree, hstays, htext, ht', hread _ htext⟩
  · cases htext.symm.trans hnone

end Value

end CanonStore
