import CanonStore.Proofs.Json.Order

/-!
# Joining repeated keys

Joining leaves a document alone that repeats no key (`joined_of_distinctKeys`). Otherwise the last
member of each key remains (`mem_joinMembers_concat`), so the order of members shows, unless those of one
key have the same value (`same_joinMembers`).
-/

namespace CanonStore.Json

/-! ## One member for each key -/

theorem setMember_of_notMem {key : Text} {members : List (Text × Json)}
    (h : key ∉ members.map Prod.fst) (j : Json) : setMember key j members = members ++ [(key, j)] := by
  induction members with
  | nil => rfl
  | cons m rest ih =>
    rw [List.map_cons, List.mem_cons, not_or] at h
    rw [setMember, if_neg (Ne.symm h.1), ih h.2, List.cons_append]

theorem keys_setMember_of_mem {key : Text} {members : List (Text × Json)}
    (h : key ∈ members.map Prod.fst) (j : Json) :
    (setMember key j members).map Prod.fst = members.map Prod.fst := by
  induction members with
  | nil => cases h
  | cons m rest ih =>
    rw [setMember]
    split
    · rfl
    · next hne =>
      rw [List.map_cons, List.mem_cons] at h
      rw [List.map_cons, List.map_cons, ih (h.resolve_left (Ne.symm hne))]

/-- Setting a member never makes two of one key. -/
theorem nodup_keys_setMember {members : List (Text × Json)} (h : (members.map Prod.fst).Nodup)
    (key : Text) (j : Json) : ((setMember key j members).map Prod.fst).Nodup := by
  by_cases hkey : key ∈ members.map Prod.fst
  · rwa [keys_setMember_of_mem hkey]
  · rw [setMember_of_notMem hkey, List.map_append, List.nodup_append]
    refine ⟨h, List.nodup_singleton key, ?_⟩
    rintro k hk l hl rfl
    obtain rfl : k = key := List.mem_singleton.mp hl
    exact hkey hk

/-- What is found after a member is set was there before, or is the member. -/
theorem mem_setMember {key : Text} {j : Json} {members : List (Text × Json)} {m : Text × Json}
    (h : m ∈ setMember key j members) : m = (key, j) ∨ m ∈ members := by
  induction members with
  | nil => exact .inl (List.mem_singleton.mp h)
  | cons n rest ih =>
    rw [setMember] at h
    split at h
    · next hkey =>
      rcases List.mem_cons.mp h with hm | hm
      · exact .inl (hm.trans (by rw [hkey]))
      · exact .inr (List.mem_cons_of_mem n hm)
    · rcases List.mem_cons.mp h with hm | hm
      · exact .inr (hm ▸ List.mem_cons_self)
      · exact (ih hm).imp_right (List.mem_cons_of_mem n)

theorem nodup_keys_foldl {members acc : List (Text × Json)} (h : (acc.map Prod.fst).Nodup) :
    ((members.foldl (fun ms m => setMember m.1 m.2 ms) acc).map Prod.fst).Nodup := by
  induction members generalizing acc with
  | nil => exact h
  | cons m rest ih => exact ih (nodup_keys_setMember h m.1 m.2)

/-- Joined members have distinct keys. -/
theorem nodup_keys_joinMembers (members : List (Text × Json)) :
    ((joinMembers members).map Prod.fst).Nodup := nodup_keys_foldl List.nodup_nil

theorem mem_foldl_setMember {members acc : List (Text × Json)} {m : Text × Json}
    (h : m ∈ members.foldl (fun ms m => setMember m.1 m.2 ms) acc) : m ∈ acc ∨ m ∈ members := by
  induction members generalizing acc with
  | nil => exact .inl h
  | cons n rest ih =>
    rcases ih h with hm | hm
    · rcases mem_setMember hm with rfl | hm
      · exact .inr List.mem_cons_self
      · exact .inl hm
    · exact .inr (List.mem_cons_of_mem n hm)

/-- Joining invents no member. -/
theorem mem_of_mem_joinMembers {members : List (Text × Json)} {m : Text × Json}
    (h : m ∈ joinMembers members) : m ∈ members :=
  (mem_foldl_setMember h).resolve_left List.not_mem_nil

/-- Members that do not repeat a key are added at the end, one by one. -/
theorem foldl_setMember_of_nodup {members acc : List (Text × Json)}
    (h : ((acc ++ members).map Prod.fst).Nodup) :
    members.foldl (fun ms m => setMember m.1 m.2 ms) acc = acc ++ members := by
  induction members generalizing acc with
  | nil => rw [List.foldl_nil, List.append_nil]
  | cons m rest ih =>
    have hkey : m.1 ∉ acc.map Prod.fst := by
      rw [List.map_append, List.map_cons] at h
      intro hm
      exact (List.nodup_append.mp h).2.2 _ hm _ List.mem_cons_self rfl
    rw [List.append_cons] at h
    rw [List.foldl_cons, setMember_of_notMem hkey, ih h, ← List.append_cons]

theorem joinMembers_of_nodup {members : List (Text × Json)} (h : (members.map Prod.fst).Nodup) :
    joinMembers members = members := foldl_setMember_of_nodup h

/-- There is nothing to join where no key repeats. -/
theorem joined_of_distinctKeys {j : Json} (h : DistinctKeys j) : joined j = j := by
  induction j with
  | null | bool | int | float | text => rfl
  | list items ih =>
    rw [distinctKeys_list_iff] at h
    rw [joined, joinedItems_eq_map, List.map_congr_left fun j hj => ih j hj (h j hj), List.map_id']
  | object members ih =>
    rw [distinctKeys_object_iff] at h
    have hvalues : members.map (Prod.map id joined) = members := by
      conv_rhs => rw [← List.map_id' members]
      exact List.map_congr_left fun m hm => Prod.ext rfl (ih m hm (h.2 m hm))
    rw [joined, joinedValues_eq_map, hvalues, joinMembers_of_nodup h.1]

/-! ## The last member of each key -/

theorem mem_keys_setMember {key k : Text} {j : Json} {members : List (Text × Json)} :
    k ∈ (setMember key j members).map Prod.fst ↔ k = key ∨ k ∈ members.map Prod.fst := by
  by_cases hkey : key ∈ members.map Prod.fst
  · rw [keys_setMember_of_mem hkey]
    constructor
    · exact .inr
    · rintro (rfl | hk)
      · exact hkey
      · exact hk
  · rw [setMember_of_notMem hkey, List.map_append, List.mem_append, List.map_singleton, List.mem_singleton,
      or_comm]

/-- Joining keeps all keys. -/
theorem mem_keys_joinMembers {key : Text} {members : List (Text × Json)} :
    key ∈ (joinMembers members).map Prod.fst ↔ key ∈ members.map Prod.fst := by
  have hfold : ∀ acc : List (Text × Json),
      key ∈ (members.foldl (fun ms m => setMember m.1 m.2 ms) acc).map Prod.fst ↔
        key ∈ acc.map Prod.fst ∨ key ∈ members.map Prod.fst := by
    induction members with
    | nil => simp
    | cons m rest ih =>
      intro acc
      rw [List.foldl_cons, ih, mem_keys_setMember, List.map_cons, List.mem_cons]
      tauto
  rw [joinMembers, hfold]
  simp

theorem mem_setMember_self (key : Text) (j : Json) (members : List (Text × Json)) :
    (key, j) ∈ setMember key j members := by
  induction members with
  | nil => exact List.mem_singleton_self _
  | cons m rest ih =>
    rw [setMember]
    split
    · next hkey =>
      rw [hkey]
      exact List.mem_cons_self
    · exact List.mem_cons_of_mem m ih

/-- The last member of all remains. -/
theorem mem_joinMembers_concat (members : List (Text × Json)) (key : Text) (j : Json) :
    (key, j) ∈ joinMembers (members ++ [(key, j)]) := by
  rw [joinMembers, List.foldl_append]
  exact mem_setMember_self key j _

/-- What remains after joining does not depend on the order of members, if those that share a key have
the same value. -/
theorem same_joinMembers {members others ordered : List (Text × Json)}
    (hpairs : List.Forall₂ MemberSame members ordered) (hperm : ordered.Perm others)
    (h : ∀ m ∈ members, ∀ n ∈ members, m.1 = n.1 → Same m.2 n.2) :
    Same (.object (joinMembers members)) (.object (joinMembers others)) := by
  have hkeys : members.map Prod.fst = ordered.map Prod.fst :=
    map_eq_map_iff_forall₂.mpr (hpairs.imp fun _ _ hmn => hmn.1)
  refine same_object_of_keys (nodup_keys_joinMembers members) (nodup_keys_joinMembers others) ?_ ?_
  · intro key
    rw [mem_keys_joinMembers, mem_keys_joinMembers, hkeys]
    exact (hperm.map Prod.fst).mem_iff
  · intro m hm n hn hkey
    -- Members that remain under one key may come from different places, but these have the same value.
    obtain ⟨l, hl, hln⟩ := exists_of_mem_right hpairs (hperm.symm.subset (mem_of_mem_joinMembers hn))
    exact (h m (mem_of_mem_joinMembers hm) l hl (hkey.trans hln.1.symm)).trans hln.2

end CanonStore.Json
