import CanonStore.Proofs.Parts
import CanonStore.Yaml

/-!
# What holds of all values that documents denote

The value of a document is built from the values of its scalars: lists, pairs, and dictionaries whose repeated keys
are joined. A property that holds of the leaves and passes from parts to what is built of them (`Formed`) therefore
holds of whatever is read. Main statement: `Formed.of_read`.
-/

namespace CanonStore

/-- The value is a leaf of the trees that documents denote. A set counts as one, since its items are not kept. -/
def Value.IsLeaf : Value → Prop
  | .null | .bool _ | .int _ | .float _ | .text _ | .bytes _ | .moment _ | .date _ | .foreign .set | .endless _ =>
    True
  | _ => False

namespace Yaml

/-- The property holds of leaves and passes from parts to the collections that documents form of them. -/
structure Formed (P : Value → Prop) : Prop where
  leaf : ∀ {v : Value}, v.IsLeaf → P v
  list : ∀ {items : List Value}, (∀ v ∈ items, P v) → P (.list items)
  pair : ∀ {k v : Value}, P k → P v → P (.tuple [k, v])
  dict : ∀ {entries : List (Value × Value)}, (∀ e ∈ entries, P e.1 ∧ P e.2) →
    P (.dict (Value.joinEntries entries))

/-! ## Scalars -/

theorem isLeaf_of_toMoment {t : Text} {v : Value} (h : toMoment t = .ok v) : v.IsLeaf := by
  unfold toMoment at h
  split at h
  · cases h
  · split at h
    · obtain ⟨d, _, rfl⟩ := map_eq_ok_iff.mp h
      trivial
    · obtain ⟨offset, _, h⟩ := bind_eq_ok_iff.mp h
      obtain ⟨d, _, h⟩ := bind_eq_ok_iff.mp h
      split at h
      · cases h
      · split at h
        · cases h
        · split at h
          · cases h
          · cases h
            trivial

theorem isLeaf_of_scalarValue {tag : Tag} {t : Text} {v : Value} (h : scalarValue tag t = .ok v) : v.IsLeaf := by
  cases tag with
  | null | text =>
    cases h
    trivial
  | bool | int | float | binary =>
    obtain ⟨_, _, rfl⟩ := map_eq_ok_iff.mp h
    trivial
  | moment => exact isLeaf_of_toMoment h
  | _ => cases h

namespace Node

variable {P : Value → Prop} {rounds : Nat}

/-- What is made of a scalar is a leaf, even where a fault leaves nothing. -/
theorem isLeaf_ofAttempt (level : Nat) (tag : Tag) (t : Text) :
    (Made.ofAttempt level (scalarValue tag t)).content.IsLeaf := by
  cases h : scalarValue tag t with
  | ok v => exact isLeaf_of_scalarValue h
  | error fault => trivial

/-! ## One round -/

/-- The property holds of all that is made of nodes in so many rounds, on any level. -/
structure Holds (P : Value → Prop) (rounds : Nat) : Prop where
  node : ∀ level n, P (make rounds level n).content
  items : ∀ level ns, ∀ v ∈ (makeItems rounds level ns).content, P v
  pairs : ∀ level ns, ∀ v ∈ (makePairs rounds level ns).content, P v
  mapping : ∀ level entries, ∀ e ∈ (makeMapping rounds level entries).content, P e.1 ∧ P e.2
  entries : ∀ level entries, ∀ e ∈ (makeEntries rounds level entries).content, P e.1 ∧ P e.2

theorem make_succ (hP : Formed P) (h : Holds P rounds) (level : Nat) (n : Node) :
    P (make (rounds + 1) level n).content := by
  -- Where a fault is found nothing is made, and that is a leaf too.
  have hnull : P .null := hP.leaf trivial
  cases n with
  | enclosing shape => exact hP.leaf trivial
  | scalar tag t =>
    cases tag with
    | sequence | mapping | pairs | orderedPairs | set => exact hnull
    | _ => exact hP.leaf (isLeaf_ofAttempt level _ t)
  | sequence tag ns =>
    cases tag with
    | sequence => exact hP.list (h.items _ ns)
    | pairs | orderedPairs => exact hP.list (h.pairs _ ns)
    | _ => exact hnull
  | mapping tag entries =>
    cases tag with
    | mapping => exact hP.dict (h.mapping _ entries)
    | set => exact hP.leaf trivial
    | sequence | pairs | orderedPairs => exact hnull
    | _ =>
      -- A mapping under the tag of a scalar stands for its main value.
      simp only [make]
      split
      · exact hP.leaf (isLeaf_ofAttempt level _ _)
      · exact hnull

theorem makeItems_succ (h : Holds P rounds) (level : Nat) (ns : List Node) :
    ∀ v ∈ (makeItems (rounds + 1) level ns).content, P v := by
  cases ns with
  | nil => exact List.forall_mem_nil _
  | cons n rest => exact List.forall_mem_cons.mpr ⟨h.node level n, h.items level rest⟩

theorem makePairs_succ (hP : Formed P) (h : Holds P rounds) (level : Nat) (ns : List Node) :
    ∀ v ∈ (makePairs (rounds + 1) level ns).content, P v := by
  cases ns with
  | nil => exact List.forall_mem_nil _
  | cons n rest =>
    refine List.forall_mem_cons.mpr ⟨?_, h.pairs level rest⟩
    split
    · exact hP.pair (h.node level _) (h.node level _)
    · exact hP.leaf trivial

theorem makeMapping_succ (h : Holds P rounds) (level : Nat) (entries : List (Node × Node)) :
    ∀ e ∈ (makeMapping (rounds + 1) level entries).content, P e.1 ∧ P e.2 := by
  rw [makeMapping]
  split
  · exact List.forall_mem_nil _
  · exact h.entries level _

theorem makeEntries_succ (h : Holds P rounds) (level : Nat) (entries : List (Node × Node)) :
    ∀ e ∈ (makeEntries (rounds + 1) level entries).content, P e.1 ∧ P e.2 := by
  cases entries with
  | nil => exact List.forall_mem_nil _
  | cons e rest =>
    exact List.forall_mem_cons.mpr ⟨⟨h.node level e.1, h.node level e.2⟩, h.entries level rest⟩

/-! ## All rounds -/

theorem holds (hP : Formed P) (rounds : Nat) : Holds P rounds := by
  induction rounds with
  | zero =>
    -- Without rounds there is a fault and nothing else.
    exact ⟨fun _ _ => hP.leaf trivial, fun _ _ => List.forall_mem_nil _, fun _ _ => List.forall_mem_nil _,
      fun _ _ => List.forall_mem_nil _, fun _ _ => List.forall_mem_nil _⟩
  | succ rounds ih =>
    exact ⟨make_succ hP ih, makeItems_succ ih, makePairs_succ hP ih, makeMapping_succ ih, makeEntries_succ ih⟩

end Node

/-- What holds of leaves and of all that is formed holds of the value of every document. -/
theorem Formed.of_read {P : Value → Prop} (hP : Formed P) {t : Text} {v : Value} (h : read t = .ok v) : P v := by
  obtain ⟨n?, _, h⟩ := bind_eq_ok_iff.mp h
  cases n? with
  | none =>
    cases h
    exact hP.leaf trivial
  | some n =>
    have hmade := (Node.holds hP (4 * n.size + 10)).node 0 n
    dsimp only [Node.toValue] at h
    split at h
    · cases h
    · cases h
      exact hmade

end Yaml

end CanonStore
