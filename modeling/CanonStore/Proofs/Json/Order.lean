import CanonStore.Proofs.Json.Tree
import CanonStore.Proofs.Parts
import Mathlib.Data.List.Perm.Basic
import Mathlib.Data.List.Sort
import Mathlib.Order.Fin.Basic

/-!
# The order of members

Two documents are the `Same` if they differ at most in the order of members, at any depth. Sorting the
members of every object takes a document to one form of its kind: `same_iff_sorted_eq` says that two
documents without repeated keys are the same exactly if their sorted forms are equal. The sorted form
is itself the same document, and its keys ascend strictly (`keys_sortMembers_pairwise`).
-/

namespace CanonStore.Json

/-! ## The same document -/

mutual

/-- The same document up to the order of members, at every depth. -/
def Same : Json → Json → Prop
  | .null, .null => True
  | .bool b, .bool c => b = c
  | .int m, .int n => m = n
  | .float x, .float y => x = y
  | .text t, .text u => t = u
  | .list items, .list others => ItemsSame items others
  | .object members, .object others => MembersSame members others
  | _, _ => False

/-- The same items one by one. -/
def ItemsSame : List Json → List Json → Prop
  | [], others => others = []
  | j :: rest, others => ∃ k ks, others = k :: ks ∧ Same j k ∧ ItemsSame rest ks

/-- Each member has one of its own among the others, with its key and the same value. -/
def MembersSame : List (Text × Json) → List (Text × Json) → Prop
  | [], others => others = []
  | (key, j) :: rest, others =>
    ∃ before k after, others = before ++ (key, k) :: after ∧ Same j k ∧ MembersSame rest (before ++ after)

end

/-- Members with one key and the same value. -/
def MemberSame (m n : Text × Json) : Prop := m.1 = n.1 ∧ Same m.2 n.2

theorem same_list_iff (items others : List Json) :
    Same (.list items) (.list others) ↔ List.Forall₂ Same items others :=
  (iff_forall₂_of_cons (fun _ => Iff.rfl) fun _ _ _ => Iff.rfl : ItemsSame items others ↔ _)

/-- Objects are the same if the members of the second can be put into an order in which they pair off. -/
theorem same_object_iff (members others : List (Text × Json)) :
    Same (.object members) (.object others) ↔
      ∃ ordered, List.Forall₂ MemberSame members ordered ∧ ordered.Perm others := by
  show MembersSame members others ↔ _
  apply iff_exists_perm_of_cons (fun _ => Iff.rfl)
  intro m rest others
  constructor
  · rintro ⟨before, k, after, rfl, hjk, hrest⟩
    exact ⟨before, (m.1, k), after, rfl, ⟨rfl, hjk⟩, hrest⟩
  · rintro ⟨before, ⟨_, k⟩, after, rfl, ⟨rfl, hjk⟩, hrest⟩
    exact ⟨before, k, after, rfl, hjk, hrest⟩

/-- What is the same as a list is a list. -/
theorem exists_list_of_same {items : List Json} {k : Json} (h : Same (.list items) k) :
    ∃ others, k = .list others := by
  cases k with
  | list others => exact ⟨others, rfl⟩
  | _ => exact h.elim

/-- What is the same as an object is an object. -/
theorem exists_object_of_same {members : List (Text × Json)} {k : Json} (h : Same (.object members) k) :
    ∃ others, k = .object others := by
  cases k with
  | object others => exact ⟨others, rfl⟩
  | _ => exact h.elim

/-! ## Sorting members -/

/-- The first member stands before the second by its key. -/
def KeyLe (m n : Text × Json) : Prop := m.1 ≤ n.1

instance : DecidableRel KeyLe := fun m n => inferInstanceAs (Decidable (m.1 ≤ n.1))

instance : Std.Total KeyLe := ⟨fun m n => List.le_total m.1 n.1⟩

instance : IsTrans (Text × Json) KeyLe := ⟨fun _ _ _ => List.le_trans⟩

theorem insertSorted_eq (m : Text × Json) (members : List (Text × Json)) :
    insertSorted m members = members.orderedInsert KeyLe m := by
  induction members with
  | nil => rfl
  | cons n rest ih =>
    rw [insertSorted, ih, List.orderedInsert]
    rfl

theorem sortMembers_eq (members : List (Text × Json)) :
    sortMembers members = members.insertionSort KeyLe := by
  induction members with
  | nil => rfl
  | cons m rest ih =>
    rw [List.insertionSort_cons, ← ih, ← insertSorted_eq]
    rfl

/-- Sorting leaves no member out. -/
theorem sortMembers_perm (members : List (Text × Json)) : (sortMembers members).Perm members := by
  rw [sortMembers_eq]
  exact List.perm_insertionSort KeyLe members

/-- Sorted members are in order. -/
theorem sortMembers_pairwise (members : List (Text × Json)) : (sortMembers members).Pairwise KeyLe := by
  rw [sortMembers_eq]
  exact List.pairwise_insertionSort KeyLe members

/-- Members with one key are one member where keys do not repeat. -/
theorem eq_of_key_eq {members : List (Text × Json)} (h : (members.map Prod.fst).Nodup)
    {m n : Text × Json} (hm : m ∈ members) (hn : n ∈ members) (hkey : m.1 = n.1) : m = n :=
  List.inj_on_of_nodup_map h hm hn hkey

/-- The order in which members without repeated keys are handed over does not show once they are
sorted. -/
theorem sortMembers_eq_of_perm {members others : List (Text × Json)}
    (hdistinct : (members.map Prod.fst).Nodup) (h : members.Perm others) :
    sortMembers members = sortMembers others := by
  have hsorted : (sortMembers members).Perm (sortMembers others) :=
    ((sortMembers_perm members).trans h).trans (sortMembers_perm others).symm
  refine hsorted.eq_of_pairwise ?_ (sortMembers_pairwise members) (sortMembers_pairwise others)
  intro m n hm hn hmn hnm
  have hm' : m ∈ members := (sortMembers_perm members).subset hm
  have hn' : n ∈ members := h.symm.subset ((sortMembers_perm others).subset hn)
  exact eq_of_key_eq hdistinct hm' hn' (List.le_antisymm hmn hnm)

/-- Distinct keys ascend strictly once they are sorted. -/
theorem keys_sortMembers_pairwise {members : List (Text × Json)}
    (h : (members.map Prod.fst).Nodup) : ((sortMembers members).map Prod.fst).Pairwise (· < ·) := by
  have hdistinct : ((sortMembers members).map Prod.fst).Nodup :=
    ((sortMembers_perm members).map Prod.fst).nodup_iff.mpr h
  have hle : ((sortMembers members).map Prod.fst).Pairwise (· ≤ ·) :=
    List.pairwise_map.mpr (sortMembers_pairwise members)
  refine (hle.and hdistinct).imp ?_
  rintro k l ⟨hkl, hne⟩
  by_contra hlt
  exact hne (List.le_antisymm hkl hlt)

theorem sorted_list (items : List Json) : sorted (.list items) = .list (items.map sorted) := by
  rw [sorted, sortedItems_eq_map]

theorem sorted_object (members : List (Text × Json)) :
    sorted (.object members) = .object (sortMembers (members.map (Prod.map id sorted))) := by
  rw [sorted, sortedMembers_eq_map]

/-- Sorting changes the order of members and what is inside them. -/
theorem forall₂_map_sorted {R : Json → Json → Prop} {members : List (Text × Json)}
    (h : ∀ m ∈ members, R m.2 (sorted m.2)) :
    List.Forall₂ (fun m n => m.1 = n.1 ∧ R m.2 n.2) members (members.map (Prod.map id sorted)) := by
  refine List.forall₂_map_right_iff.mpr (List.forall₂_same.mpr ?_)
  intro m hm
  exact ⟨rfl, h m hm⟩

/-- The sorted form is the same document. -/
theorem same_sorted (j : Json) : Same j (sorted j) := by
  induction j with
  | null => trivial
  | bool | int | float | text => rfl
  | list items ih =>
    rw [sorted_list, same_list_iff]
    exact List.forall₂_map_right_iff.mpr (List.forall₂_same.mpr ih)
  | object members ih =>
    rw [sorted_object, same_object_iff]
    exact ⟨_, forall₂_map_sorted ih, (sortMembers_perm _).symm⟩

/-! ## Distinct keys -/

mutual

/-- No object of the document repeats a key. -/
def DistinctKeys : Json → Prop
  | .list items => ItemsDistinct items
  | .object members => (members.map Prod.fst).Nodup ∧ MembersDistinct members
  | _ => True

/-- No object in the items repeats a key. -/
def ItemsDistinct : List Json → Prop
  | [] => True
  | j :: rest => DistinctKeys j ∧ ItemsDistinct rest

/-- No object in the values of the members repeats a key. -/
def MembersDistinct : List (Text × Json) → Prop
  | [] => True
  | (_, j) :: rest => DistinctKeys j ∧ MembersDistinct rest

end

theorem distinctKeys_list_iff (items : List Json) :
    DistinctKeys (.list items) ↔ ∀ j ∈ items, DistinctKeys j := by
  show ItemsDistinct items ↔ _
  exact iff_forall_mem_of_cons trivial (fun _ _ => Iff.rfl) items

theorem distinctKeys_object_iff (members : List (Text × Json)) :
    DistinctKeys (.object members) ↔
      (members.map Prod.fst).Nodup ∧ ∀ m ∈ members, DistinctKeys m.2 := by
  have hvalues : MembersDistinct members ↔ ∀ m ∈ members, DistinctKeys m.2 :=
    iff_forall_mem_of_cons trivial (fun _ _ => Iff.rfl) members
  rw [← hvalues]
  rfl

/-! ## One form for each document -/

/-- Documents whose sorted forms are equal are the same. -/
theorem same_of_sorted_eq {j k : Json} (h : sorted j = sorted k) : Same j k := by
  induction j generalizing k with
  | null | bool | int | float | text =>
    cases k <;> cases h
    first | rfl | trivial
  | list items ih =>
    cases k with
    | list others =>
      rw [sorted_list, sorted_list, Json.list.injEq] at h
      rw [same_list_iff]
      exact forall₂_imp_of_mem (map_eq_map_iff_forall₂.mp h) fun j hj k heq => ih j hj heq
    | _ => rw [sorted_list] at h; cases h
  | object members ih =>
    cases k with
    | object others =>
      rw [sorted_object, sorted_object, Json.object.injEq] at h
      -- The unsorted members of both are rearranged into one another; the rearrangement is carried
      -- over to the members before they were sorted inside.
      have hperm : (members.map (Prod.map id sorted)).Perm (others.map (Prod.map id sorted)) := by
        have hsorted := sortMembers_perm (members.map (Prod.map id sorted))
        rw [h] at hsorted
        exact hsorted.symm.trans (sortMembers_perm _)
      have hself : List.Forall₂ (fun m n => m = Prod.map id sorted n)
          (others.map (Prod.map id sorted)) others :=
        List.forall₂_map_left_iff.mpr (List.forall₂_same.mpr fun _ _ => rfl)
      obtain ⟨ordered, hpairs, hordered⟩ := List.perm_comp_forall₂ hperm hself
      rw [same_object_iff]
      refine ⟨ordered, ?_, hordered⟩
      apply forall₂_imp_of_mem (List.forall₂_map_left_iff.mp hpairs)
      intro m hm n heq
      obtain ⟨hkey, hvalue⟩ := Prod.ext_iff.mp heq
      exact ⟨hkey, ih m hm hvalue⟩
    | _ => rw [sorted_object] at h; cases h

theorem keys_map_sorted (members : List (Text × Json)) :
    (members.map (Prod.map id sorted)).map Prod.fst = members.map Prod.fst := by
  rw [List.map_map]
  rfl

/-- The sorted form does not depend on the order of members. -/
theorem Same.sorted_eq {j k : Json} (h : Same j k) (hj : DistinctKeys j) : sorted j = sorted k := by
  induction j generalizing k with
  | null | bool | int | float | text =>
    cases k <;> cases h
    rfl
  | list items ih =>
    obtain ⟨others, rfl⟩ := exists_list_of_same h
    have hitems := (distinctKeys_list_iff items).mp hj
    rw [sorted_list, sorted_list]
    congr 1
    rw [map_eq_map_iff_forall₂]
    apply forall₂_imp_of_mem ((same_list_iff items others).mp h)
    intro j hj k hsame
    exact ih j hj hsame (hitems j hj)
  | object members ih =>
    obtain ⟨others, rfl⟩ := exists_object_of_same h
    obtain ⟨hkeys, hvalues⟩ := (distinctKeys_object_iff members).mp hj
    obtain ⟨ordered, hpairs, hperm⟩ := (same_object_iff members others).mp h
    -- Sorted inside, the members are the same ones in another order, and there is one order of distinct
    -- keys.
    have hmap : members.map (Prod.map id sorted) = ordered.map (Prod.map id sorted) := by
      rw [map_eq_map_iff_forall₂]
      apply forall₂_imp_of_mem hpairs
      intro m hm n hmn
      exact Prod.ext hmn.1 (ih m hm hmn.2 (hvalues m hm))
    rw [sorted_object, sorted_object]
    congr 1
    refine sortMembers_eq_of_perm ?_ ?_
    · rwa [keys_map_sorted]
    · rw [hmap]
      exact hperm.map _

/-- Documents without repeated keys are the same exactly if their sorted forms are equal. -/
theorem same_iff_sorted_eq {j k : Json} (hj : DistinctKeys j) : Same j k ↔ sorted j = sorted k :=
  ⟨fun h => h.sorted_eq hj, same_of_sorted_eq⟩

/-! ## Being the same -/

theorem Same.refl (j : Json) : Same j j := same_of_sorted_eq rfl

theorem Same.symm {j k : Json} (h : Same j k) : Same k j := by
  induction j generalizing k with
  | null | bool | int | float | text =>
    cases k <;> cases h
    first | rfl | trivial
  | list items ih =>
    obtain ⟨others, rfl⟩ := exists_list_of_same h
    rw [same_list_iff] at h ⊢
    exact (forall₂_imp_of_mem h fun j hj _ hjk => ih j hj hjk).flip
  | object members ih =>
    obtain ⟨others, rfl⟩ := exists_object_of_same h
    obtain ⟨ordered, hpairs, hperm⟩ := (same_object_iff members others).mp h
    -- The pairs turned around are in the order of the second object; they are moved into that of the first.
    have hback : List.Forall₂ (fun m n => MemberSame n m) members ordered :=
      forall₂_imp_of_mem hpairs fun m hm n hmn => ⟨hmn.1.symm, ih m hm hmn.2⟩
    exact (same_object_iff others members).mpr (List.perm_comp_forall₂ hperm.symm hback.flip)

/-- Documents that are the same as a third one are the same. -/
theorem Same.trans {j k l : Json} (hjk : Same j k) (hkl : Same k l) : Same j l := by
  induction j generalizing k l with
  | null | bool | int | float | text =>
    cases k <;> cases hjk
    exact hkl
  | list items ih =>
    obtain ⟨others, rfl⟩ := exists_list_of_same hjk
    obtain ⟨more, rfl⟩ := exists_list_of_same hkl
    rw [same_list_iff] at hjk hkl ⊢
    exact forall₂_trans_of_mem hjk hkl fun j hj _ _ => ih j hj
  | object members ih =>
    obtain ⟨others, rfl⟩ := exists_object_of_same hjk
    obtain ⟨more, rfl⟩ := exists_object_of_same hkl
    obtain ⟨ordered, hpairs, hperm⟩ := (same_object_iff members others).mp hjk
    obtain ⟨ordered', hpairs', hperm'⟩ := (same_object_iff others more).mp hkl
    -- The rearrangement in the middle is pushed through the second pairing.
    obtain ⟨ordered'', hpairs'', hperm''⟩ := List.perm_comp_forall₂ hperm hpairs'
    rw [same_object_iff]
    refine ⟨ordered'', ?_, hperm''.trans hperm'⟩
    exact forall₂_trans_of_mem hpairs hpairs'' fun m hm _ _ hmn hnl =>
      ⟨hmn.1.trans hnl.1, ih m hm hmn.2 hnl.2⟩

/-- A document is what its sorted form is. -/
theorem sorted_same (j : Json) : Same (sorted j) j := (same_sorted j).symm

/-- Members of one key are the same in objects that are the same, if one of these does not repeat it. -/
theorem same_of_mem {members others : List (Text × Json)} (h : Same (.object members) (.object others))
    (hkeys : (others.map Prod.fst).Nodup) {key : Text} {j k : Json} (hj : (key, j) ∈ members)
    (hk : (key, k) ∈ others) : Same j k := by
  obtain ⟨ordered, hpairs, hperm⟩ := (same_object_iff members others).mp h
  obtain ⟨n, hn, hkey, hsame⟩ := exists_of_mem_left hpairs hj
  obtain rfl := eq_of_key_eq hkeys (hperm.subset hn) hk hkey.symm
  exact hsame

/-- Objects that repeat no key are the same if they have the same keys and the same values at them. -/
theorem same_object_of_keys {members others : List (Text × Json)} (hm : (members.map Prod.fst).Nodup)
    (ho : (others.map Prod.fst).Nodup) (hkeys : ∀ key, key ∈ members.map Prod.fst ↔ key ∈ others.map Prod.fst)
    (h : ∀ m ∈ members, ∀ n ∈ others, m.1 = n.1 → Same m.2 n.2) :
    Same (.object members) (.object others) := by
  have hperm := (List.perm_ext_iff_of_nodup hm ho).mpr hkeys
  have hself : List.Forall₂ (fun key n => key = n.1) (others.map Prod.fst) others :=
    List.forall₂_map_left_iff.mpr (List.forall₂_same.mpr fun _ _ => rfl)
  obtain ⟨ordered, hpairs, hordered⟩ := List.perm_comp_forall₂ hperm hself
  refine (same_object_iff members others).mpr ⟨ordered, ?_, hordered⟩
  apply forall₂_imp_of_mem (forall₂_and_mem (List.forall₂_map_left_iff.mp hpairs))
  intro m hm n hn
  exact ⟨hn.1, h m hm n (hordered.subset hn.2) hn.1⟩

/-! ## What sorting keeps -/

/-- Sorting makes no key stand twice. -/
theorem distinctKeys_sorted {j : Json} (h : DistinctKeys j) : DistinctKeys (sorted j) := by
  induction j with
  | null | bool | int | float | text => trivial
  | list items ih =>
    rw [distinctKeys_list_iff] at h
    rw [sorted_list, distinctKeys_list_iff]
    intro j hj
    obtain ⟨i, hi, rfl⟩ := List.mem_map.mp hj
    exact ih i hi (h i hi)
  | object members ih =>
    rw [distinctKeys_object_iff] at h
    rw [sorted_object, distinctKeys_object_iff]
    -- Sorting rearranges the keys, so it makes no two of them equal.
    constructor
    · rw [((sortMembers_perm _).map Prod.fst).nodup_iff, keys_map_sorted]
      exact h.1
    · intro m hm
      obtain ⟨i, hi, rfl⟩ := List.mem_map.mp ((sortMembers_perm _).subset hm)
      exact ih i hi (h.2 i hi)

end CanonStore.Json
