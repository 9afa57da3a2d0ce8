import CanonStore.Proofs.Parts
import CanonStore.Proofs.Value.Tree

/-!
# The order of entries

`Value.Permuted` relates values that differ in the order of the entries of dictionaries, at any depth, and
in nothing else.
-/

namespace CanonStore.Value

mutual

/-- The same value, but for the order of entries. -/
def Permuted : Value → Value → Prop
  | .list items, .list others | .tuple items, .tuple others => ItemsPermuted items others
  | .dict entries, .dict others => EntriesPermuted entries others
  | .member m v, .member n w => m = n ∧ Permuted v w
  | .record s fields, .record t others => s = t ∧ FieldsPermuted fields others
  | .entry s fields, .entry t others => s = t ∧ FieldsPermuted fields others
  | v, w => v = w
termination_by structural v => v

/-- Items that are permuted one by one. -/
def ItemsPermuted : List Value → List Value → Prop
  | [], others => others = []
  | v :: rest, others => ∃ w ws, others = w :: ws ∧ Permuted v w ∧ ItemsPermuted rest ws
termination_by structural items => items

/-- The same keys in any order, with values that are permuted. -/
def EntriesPermuted : List (Value × Value) → List (Value × Value) → Prop
  | [], others => others = []
  | (k, v) :: rest, others =>
    ∃ before w after, others = before ++ (k, w) :: after ∧ Permuted v w ∧
      EntriesPermuted rest (before ++ after)
termination_by structural entries => entries

/-- Fields that are permuted one by one. -/
def FieldsPermuted : List (Text × Value) → List (Text × Value) → Prop
  | [], others => others = []
  | (name, v) :: rest, others =>
    ∃ w ws, others = (name, w) :: ws ∧ Permuted v w ∧ FieldsPermuted rest ws
termination_by structural fields => fields

end

theorem itemsPermuted_iff (items others : List Value) :
    ItemsPermuted items others ↔ List.Forall₂ Permuted items others :=
  iff_forall₂_of_cons (fun _ => Iff.rfl) fun _ _ _ => Iff.rfl

theorem fieldsPermuted_iff (fields others : List (Text × Value)) :
    FieldsPermuted fields others ↔
      List.Forall₂ (fun f g => f.1 = g.1 ∧ Permuted f.2 g.2) fields others := by
  apply iff_forall₂_of_cons (fun _ => Iff.rfl)
  intro f rest others
  constructor
  · rintro ⟨w, ws, rfl, hvw, hrest⟩
    exact ⟨(f.1, w), ws, rfl, ⟨rfl, hvw⟩, hrest⟩
  · rintro ⟨⟨_, w⟩, ws, rfl, ⟨rfl, hvw⟩, hrest⟩
    exact ⟨w, ws, rfl, hvw, hrest⟩

/-- Entries are permuted if the others can be put into an order in which they pair off. -/
theorem entriesPermuted_iff (entries others : List (Value × Value)) :
    EntriesPermuted entries others ↔
      ∃ ordered, List.Forall₂ (fun e f => e.1 = f.1 ∧ Permuted e.2 f.2) entries ordered ∧
        ordered.Perm others := by
  apply iff_exists_perm_of_cons (fun _ => Iff.rfl)
  intro e rest others
  constructor
  · rintro ⟨before, w, after, rfl, hvw, hrest⟩
    exact ⟨before, (e.1, w), after, rfl, ⟨rfl, hvw⟩, hrest⟩
  · rintro ⟨before, ⟨_, w⟩, after, rfl, ⟨rfl, hvw⟩, hrest⟩
    exact ⟨before, w, after, rfl, hvw, hrest⟩

theorem Permuted.refl (v : Value) : Permuted v v := by
  induction v with
  | null | bool | int | float | text | textMember | intMember | bytes | bytearray | moment | date
  | foreign | endless => rfl
  | member m v ih => exact ⟨rfl, ih⟩
  | list items ih | tuple items ih => exact (itemsPermuted_iff _ _).mpr (List.forall₂_same.mpr ih)
  | dict entries ih =>
    refine (entriesPermuted_iff _ _).mpr ⟨entries, List.forall₂_same.mpr fun e he => ?_, .refl _⟩
    exact ⟨rfl, (ih e he).2⟩
  | record type fields ih | entry type fields ih =>
    exact ⟨rfl, (fieldsPermuted_iff _ _).mpr (List.forall₂_same.mpr fun f hf => ⟨rfl, ih f hf⟩)⟩

/-- A field that is permuted inside stays in its place. -/
theorem fieldsPermuted_middle (before after : List (Text × Value)) {f : Text × Value} {w : Value}
    (hw : Permuted f.2 w) : FieldsPermuted (before ++ f :: after) (before ++ (f.1, w) :: after) := by
  have hself : ∀ fs : List (Text × Value), List.Forall₂ (fun f g => f.1 = g.1 ∧ Permuted f.2 g.2) fs fs :=
    fun fs => List.forall₂_same.mpr fun f _ => ⟨rfl, .refl f.2⟩
  exact (fieldsPermuted_iff _ _).mpr (List.rel_append (hself before) (.cons ⟨rfl, hw⟩ (hself after)))

/-- An entry that is permuted inside may go to the end. -/
theorem exists_entriesPermuted_concat {entries : List (Value × Value)} {e : Value × Value}
    (he : e ∈ entries) {w : Value} (hw : Permuted e.2 w) :
    ∃ rest, EntriesPermuted entries (rest ++ [(e.1, w)]) := by
  obtain ⟨before, after, rfl⟩ := List.append_of_mem he
  have hself : ∀ es : List (Value × Value), List.Forall₂ (fun e f => e.1 = f.1 ∧ Permuted e.2 f.2) es es :=
    fun es => List.forall₂_same.mpr fun e _ => ⟨rfl, .refl e.2⟩
  refine ⟨before ++ after, (entriesPermuted_iff _ _).mpr ⟨before ++ (e.1, w) :: after, ?_, ?_⟩⟩
  · exact List.rel_append (hself before) (.cons ⟨rfl, hw⟩ (hself after))
  · exact List.perm_middle.trans (List.perm_append_singleton _ _).symm

end CanonStore.Value
