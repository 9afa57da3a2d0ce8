import CanonStore.Json.Strict
import CanonStore.Proofs.Parts
import CanonStore.Value

/-!
# Documents as trees

A document is a tree whose inner nodes hold lists. Its functions are written as three that call one
another; here each of the two that walk a list is shown to be the walk that the library has for it, so
that proofs need the induction on documents alone. `Json.inductionOn` is that induction: the case of a
list or an object assumes the statement for all its parts.
-/

namespace CanonStore.Json

/-- Induction on documents. -/
@[elab_as_elim, induction_eliminator]
theorem inductionOn {P : Json → Prop} (null : P .null) (bool : ∀ b, P (.bool b))
    (int : ∀ n, P (.int n)) (float : ∀ x, P (.float x)) (text : ∀ t, P (.text t))
    (list : ∀ items : List Json, (∀ j ∈ items, P j) → P (.list items))
    (object : ∀ members : List (Text × Json), (∀ m ∈ members, P m.2) → P (.object members))
    (j : Json) : P j :=
  @Json.rec P (fun items => ∀ j ∈ items, P j) (fun members => ∀ m ∈ members, P m.2) (fun m => P m.2)
    null bool int float text list object
    (fun _ h => nomatch h) (fun _ _ hj hrest => List.forall_mem_cons.mpr ⟨hj, hrest⟩)
    (fun _ h => nomatch h) (fun _ _ hm hrest => List.forall_mem_cons.mpr ⟨hm, hrest⟩)
    (fun _ _ hj => hj) j

/-! ## Walks -/

theorem sortedItems_eq_map (items : List Json) : sortedItems items = items.map sorted :=
  eq_map_of_cons rfl (fun _ _ => rfl) items

theorem sortedMembers_eq_map (members : List (Text × Json)) :
    sortedMembers members = members.map (Prod.map id sorted) :=
  eq_map_of_cons rfl (fun _ _ => rfl) members

theorem joinedItems_eq_map (items : List Json) : joinedItems items = items.map joined :=
  eq_map_of_cons rfl (fun _ _ => rfl) items

theorem joinedValues_eq_map (members : List (Text × Json)) :
    joinedValues members = members.map (Prod.map id joined) :=
  eq_map_of_cons rfl (fun _ _ => rfl) members

theorem toValue_list (items : List Json) : toValue (.list items) = .list (items.map toValue) := by
  have hitems : itemsToValues items = items.map toValue := eq_map_of_cons rfl (fun _ _ => rfl) items
  exact congrArg Value.list hitems

theorem toValue_object (members : List (Text × Json)) :
    toValue (.object members) = .dict (members.map (Prod.map Value.text toValue)) := by
  have hmembers : membersToEntries members = members.map (Prod.map Value.text toValue) :=
    eq_map_of_cons rfl (fun _ _ => rfl) members
  exact congrArg Value.dict hmembers

theorem hasOversized_list_eq_false (items : List Json) :
    hasOversized (.list items) = false ↔ ∀ j ∈ items, hasOversized j = false := by
  show itemsOversized items = false ↔ _
  rw [eq_any_of_cons (f := itemsOversized) rfl (fun _ _ => rfl) items, List.any_eq_false]
  simp only [Bool.not_eq_true]

theorem hasOversized_object_eq_false (members : List (Text × Json)) :
    hasOversized (.object members) = false ↔ ∀ m ∈ members, hasOversized m.2 = false := by
  show membersOversized members = false ↔ _
  rw [eq_any_of_cons (f := membersOversized) rfl (fun _ _ => rfl) members, List.any_eq_false]
  simp only [Bool.not_eq_true]

theorem hasSurrogate_list_eq_false (items : List Json) :
    hasSurrogate (.list items) = false ↔ ∀ j ∈ items, hasSurrogate j = false := by
  show itemsSurrogate items = false ↔ _
  rw [eq_any_of_cons (f := itemsSurrogate) rfl (fun _ _ => rfl) items, List.any_eq_false]
  simp only [Bool.not_eq_true]

theorem hasSurrogate_object_eq_false (members : List (Text × Json)) :
    hasSurrogate (.object members) = false ↔
      ∀ m ∈ members, m.1.any CodePoint.isSurrogate = false ∧ hasSurrogate m.2 = false := by
  show membersSurrogate members = false ↔ _
  rw [eq_any_of_cons (f := membersSurrogate) rfl (fun _ _ => rfl) members, List.any_eq_false]
  simp only [Bool.not_eq_true, Bool.or_eq_false_iff]

/-! ## Nesting -/

theorem itemsNesting_le_iff (items : List Json) (n : Nat) :
    itemsNesting items ≤ n ↔ ∀ j ∈ items, nesting j ≤ n :=
  iff_forall_mem_of_cons (P := fun items => itemsNesting items ≤ n) (Nat.zero_le n)
    (fun _ _ => Nat.max_le) items

theorem membersNesting_le_iff (members : List (Text × Json)) (n : Nat) :
    membersNesting members ≤ n ↔ ∀ m ∈ members, nesting m.2 ≤ n :=
  iff_forall_mem_of_cons (P := fun members => membersNesting members ≤ n) (Nat.zero_le n)
    (fun _ _ => Nat.max_le) members

/-- A list keeps to a depth if it is empty or its items keep to one less. -/
theorem nesting_list_le_iff (items : List Json) (n : Nat) :
    nesting (.list items) ≤ n ↔ items = [] ∨ 0 < n ∧ ∀ j ∈ items, nesting j ≤ n - 1 := by
  cases items with
  | nil => simp [nesting]
  | cons j rest =>
    rw [nesting, ← itemsNesting_le_iff]
    · simp only [List.cons_ne_nil, false_or]
      omega
    · exact List.cons_ne_nil j rest

/-- An object keeps to a depth if it is empty or its values keep to one less. -/
theorem nesting_object_le_iff (members : List (Text × Json)) (n : Nat) :
    nesting (.object members) ≤ n ↔ members = [] ∨ 0 < n ∧ ∀ m ∈ members, nesting m.2 ≤ n - 1 := by
  cases members with
  | nil => simp [nesting]
  | cons m rest =>
    rw [nesting, ← membersNesting_le_iff]
    · simp only [List.cons_ne_nil, false_or]
      omega
    · exact List.cons_ne_nil m rest

end CanonStore.Json
