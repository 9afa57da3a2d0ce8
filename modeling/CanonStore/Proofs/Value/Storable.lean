import CanonStore.Proofs.Json.Surrogates
import CanonStore.Proofs.Value.Same

/-!
# Values that can be stored

Whether a dictionary or a list is stored is decided in three passes: the gate lets plain values through,
the canonical form takes finite numbers, and the octets take integers that are not too long and texts
without surrogates. `Storable` says all of it at once, for each kind of value. The gate is described by
`firstForeignAt_eq_none_iff`, the canonical form by `exists_ofValueAt` and `storable_iff_of_ofValueAt`.
-/

namespace CanonStore.Value

open Json (isOversized)

/-! ## Nesting -/

mutual

/-- How many containers lie inside one another. -/
def nesting : Value → Nat
  | .list items | .tuple items => itemsNesting items + 1
  | .dict entries => entriesNesting entries + 1
  | .member _ v => nesting v
  | .record _ fields | .entry _ fields => fieldsNesting fields + 1
  | _ => 0

/-- The deepest nesting among items. -/
def itemsNesting : List Value → Nat
  | [] => 0
  | v :: rest => max (nesting v) (itemsNesting rest)

/-- The deepest nesting among keys and values. -/
def entriesNesting : List (Value × Value) → Nat
  | [] => 0
  | (k, v) :: rest => max (max (nesting k) (nesting v)) (entriesNesting rest)

/-- The deepest nesting among the values of fields. -/
def fieldsNesting : List (Text × Value) → Nat
  | [] => 0
  | (_, v) :: rest => max (nesting v) (fieldsNesting rest)

end

theorem nesting_list_le_iff (items : List Value) (n : Nat) :
    nesting (.list items) ≤ n ↔ 0 < n ∧ ∀ v ∈ items, nesting v ≤ n - 1 := by
  have hitems : itemsNesting items ≤ n - 1 ↔ ∀ v ∈ items, nesting v ≤ n - 1 :=
    iff_forall_mem_of_cons (P := fun items => itemsNesting items ≤ n - 1) (Nat.zero_le _)
      (fun _ _ => Nat.max_le) items
  rw [nesting, ← hitems]
  omega

theorem nesting_dict_le_iff (entries : List (Value × Value)) (n : Nat) :
    nesting (.dict entries) ≤ n ↔ 0 < n ∧ ∀ e ∈ entries, nesting e.1 ≤ n - 1 ∧ nesting e.2 ≤ n - 1 := by
  have hentries : entriesNesting entries ≤ n - 1 ↔
      ∀ e ∈ entries, nesting e.1 ≤ n - 1 ∧ nesting e.2 ≤ n - 1 :=
    iff_forall_mem_of_cons (P := fun entries => entriesNesting entries ≤ n - 1) (Nat.zero_le _)
      (fun _ _ => Nat.max_le.trans (and_congr_left' Nat.max_le)) entries
  rw [nesting, ← hentries]
  omega

/-- A text is no container. -/
theorem nesting_le_of_text? {k : Value} (h : k.text?.isSome) {n : Nat} : nesting k ≤ n := by
  cases k with
  | text | textMember => exact Nat.zero_le n
  | _ => cases h

/-! ## What is stored -/

mutual

/-- The value is nothing, a truth value, an integer of at most 4300 digits, a finite float, a text without
surrogates, or a list or a dictionary of such values, with keys that are texts without surrogates. -/
def Storable : Value → Prop
  | .null | .bool _ => True
  | .int n => (Numeral.ofNat n.natAbs).length ≤ 4300
  | .float x => x.isFinite
  | .text t => t.any CodePoint.isSurrogate = false
  | .list items => ItemsStorable items
  | .dict entries => EntriesStorable entries
  | _ => False

/-- All items can be stored. -/
def ItemsStorable : List Value → Prop
  | [] => True
  | v :: rest => Storable v ∧ ItemsStorable rest

/-- All keys are texts that can be stored, and so can all values. -/
def EntriesStorable : List (Value × Value) → Prop
  | [] => True
  | (k, v) :: rest =>
    ((∃ t, k.text? = some t ∧ t.any CodePoint.isSurrogate = false) ∧ Storable v) ∧ EntriesStorable rest

end

theorem storable_list_iff (items : List Value) : Storable (.list items) ↔ ∀ v ∈ items, Storable v := by
  show ItemsStorable items ↔ _
  exact iff_forall_mem_of_cons trivial (fun _ _ => Iff.rfl) items

theorem storable_dict_iff (entries : List (Value × Value)) :
    Storable (.dict entries) ↔
      ∀ e ∈ entries, (∃ t, e.1.text? = some t ∧ t.any CodePoint.isSurrogate = false) ∧ Storable e.2 := by
  show EntriesStorable entries ↔ _
  exact iff_forall_mem_of_cons trivial (fun _ _ => Iff.rfl) entries

theorem storable_ofFields_iff {fields : List (Text × Value)} (names : List Text)
    (hfields : fields.map Prod.fst = names) (hnames : ∀ t ∈ names, t.any CodePoint.isSurrogate = false) :
    (ofFields fields).Storable ↔ ∀ f ∈ fields, f.2.Storable := by
  rw [← hfields, List.forall_mem_map] at hnames
  rw [ofFields, storable_dict_iff, List.forall_mem_map]
  exact forall₂_congr fun f hf => and_iff_right ⟨f.1, rfl, hnames f hf⟩

theorem storable_int_iff (n : Int) : Storable (.int n) ↔ isOversized n = false := by
  rw [Json.isOversized_eq_false_iff, Storable, Numeral.length_ofNat]
  rfl

theorem exists_storable_text_iff (k : Value) :
    (∃ t, k.text? = some t ∧ t.any CodePoint.isSurrogate = false) ↔
      k.text?.any (fun t => !t.any CodePoint.isSurrogate) = true := by
  cases k.text? <;> simp

mutual

/-- Decides whether a value can be stored. -/
def decideStorable : (v : Value) → Decidable (Storable v)
  | .null | .bool _ => .isTrue trivial
  | .int n => decidable_of_iff _ (storable_int_iff n).symm
  | .float x => inferInstanceAs (Decidable (x.isFinite = true))
  | .text t => inferInstanceAs (Decidable (t.any CodePoint.isSurrogate = false))
  | .list items => decideItemsStorable items
  | .dict entries => decideEntriesStorable entries
  | .textMember _ _ | .intMember _ _ | .member _ _ | .tuple _ | .bytes _ | .bytearray _ | .moment _ | .date _
  | .record _ _ | .entry _ _ | .foreign _ | .endless _ => .isFalse id

/-- Decides whether all items can be stored. -/
def decideItemsStorable : (items : List Value) → Decidable (ItemsStorable items)
  | [] => .isTrue trivial
  | v :: rest => @instDecidableAnd _ _ (decideStorable v) (decideItemsStorable rest)

/-- Decides whether all entries can be stored. -/
def decideEntriesStorable : (entries : List (Value × Value)) → Decidable (EntriesStorable entries)
  | [] => .isTrue trivial
  | (k, v) :: rest =>
    @instDecidableAnd _ _ (@instDecidableAnd _ _ (decidable_of_iff _ (exists_storable_text_iff k).symm)
      (decideStorable v)) (decideEntriesStorable rest)

end

instance (v : Value) : Decidable (Storable v) := decideStorable v

/-- What can be stored is plain. -/
theorem Storable.plain {v : Value} (h : Storable v) : Plain v := by
  induction v with
  | null | bool | int | float | text => trivial
  | list items ih =>
    rw [storable_list_iff] at h
    rw [plain_list_iff]
    exact fun v hv => ih v hv (h v hv)
  | dict entries ih =>
    rw [storable_dict_iff] at h
    rw [plain_dict_iff]
    intro e he
    obtain ⟨⟨t, ht, _⟩, hvalue⟩ := h e he
    exact ⟨ht ▸ rfl, (ih e he).2 hvalue⟩
  | _ => exact h.elim

/-! ## The gate -/

theorem exists_ofValue? {k : Value} (h : k.text?.isSome) : ∃ l, Label.ofValue? k = some l := by
  cases k with
  | text t => exact ⟨.plain t, rfl⟩
  | textMember m t => exact ⟨.member m t, rfl⟩
  | _ => cases h

section Gate

variable {depth : Nat}

/-- The index is that of the item in the whole list, so it varies with the rest. -/
theorem firstForeignItem_eq_none {items : List Value}
    (h : ∀ v ∈ items, ∀ p, firstForeignAt depth p v = .ok none) (place : Location) (index : Nat) :
    firstForeignItem depth place index items = .ok none := by
  induction items generalizing index with
  | nil => rfl
  | cons v rest ih =>
    rw [List.forall_mem_cons] at h
    rw [firstForeignItem, h.1]
    exact ih h.2 (index + 1)

theorem firstForeignEntry_eq_none {entries : List (Value × Value)}
    (h : ∀ e ∈ entries, e.1.text?.isSome ∧ ∀ p, firstForeignAt depth p e.2 = .ok none) (place : Location) :
    firstForeignEntry depth place entries = .ok none := by
  induction entries with
  | nil => rfl
  | cons e rest ih =>
    rw [List.forall_mem_cons] at h
    obtain ⟨l, hl⟩ := exists_ofValue? h.1.1
    rw [firstForeignEntry, hl]
    dsimp only
    rw [h.1.2]
    exact ih h.2

/-- A plain value that is not nested too deeply passes the gate. -/
theorem firstForeignAt_of_plain {v : Value} (hv : Plain v) (hn : v.nesting ≤ depth) (place : Location) :
    firstForeignAt depth place v = .ok none := by
  induction v generalizing depth place with
  | null | bool | int | float | text => rfl
  | list items ih =>
    rw [plain_list_iff] at hv
    obtain ⟨hd, hitems⟩ := (nesting_list_le_iff _ _).mp hn
    rw [firstForeignAt, if_neg hd.ne']
    exact firstForeignItem_eq_none (fun v hmem => ih v hmem (hv v hmem) (hitems v hmem)) place 0
  | dict entries ih =>
    rw [plain_dict_iff] at hv
    obtain ⟨hd, hentries⟩ := (nesting_dict_le_iff _ _).mp hn
    rw [firstForeignAt, if_neg hd.ne']
    apply firstForeignEntry_eq_none
    intro e he
    exact ⟨(hv e he).1, (ih e he).2 (hv e he).2 (hentries e he).2⟩
  | _ => exact hv.elim

end Gate

/-! ## The canonical form -/

theorem exists_ofItems {depth : Nat} {items : List Value}
    (h : ∀ v ∈ items, ∀ p, ∃ c, Canonical.ofValueAt depth p v = .ok c) (place : Location) (index : Nat) :
    ∃ cs, Canonical.ofItems depth place index items = .ok cs := by
  induction items generalizing index with
  | nil => exact ⟨[], rfl⟩
  | cons v rest ih =>
    rw [List.forall_mem_cons] at h
    obtain ⟨c, hc⟩ := h.1 (place.item index)
    obtain ⟨cs, hcs⟩ := ih h.2 (index + 1)
    exact ⟨c :: cs, walk_eq_ok_iff.mpr ⟨c, cs, rfl, ⟨c, hc, rfl⟩, hcs⟩⟩

/-- What can be stored has a tree, if it is not nested too deeply. -/
theorem exists_ofValueAt {v : Value} (hv : Storable v) {depth : Nat} (hn : v.nesting ≤ depth)
    (place : Location) : ∃ c, Canonical.ofValueAt depth place v = .ok c := by
  induction v generalizing depth place with
  | null => exact ⟨.null, rfl⟩
  | bool b => exact ⟨.bool b, rfl⟩
  | int n => exact ⟨.int n, rfl⟩
  | float x => exact ⟨.float x, if_pos hv⟩
  | text t => exact ⟨.text (.plain t), rfl⟩
  | list items ih =>
    rw [storable_list_iff] at hv
    obtain ⟨hd, hitems⟩ := (nesting_list_le_iff _ _).mp hn
    obtain ⟨cs, hcs⟩ := exists_ofItems (fun v hmem => ih v hmem (hv v hmem) (hitems v hmem)) place 0
    exact ⟨.list cs, Canonical.ofValueAt_list_eq_ok_iff.mpr ⟨hd.ne', cs, hcs, rfl⟩⟩
  | dict entries ih =>
    rw [storable_dict_iff] at hv
    obtain ⟨hd, hentries⟩ := (nesting_dict_le_iff _ _).mp hn
    -- Each key has a label, because a stored one is a text.
    have hmember : ∀ e ∈ entries, ∃ m : Label × Canonical, Label.ofValue? e.1 = some m.1 ∧
        Canonical.ofValueAt (depth - 1) (place.key m.1) e.2 = .ok m.2 := by
      intro e he
      obtain ⟨⟨t, ht, _⟩, hvalue⟩ := hv e he
      obtain ⟨l, hl⟩ := exists_ofValue? (k := e.1) (ht ▸ rfl)
      obtain ⟨c, hc⟩ := (ih e he).2 hvalue (hentries e he).2 (place.key l)
      exact ⟨(l, c), hl, hc⟩
    obtain ⟨ms, hms⟩ := exists_forall₂_of_forall hmember
    exact ⟨.object ms, Canonical.ofValueAt_dict_eq_ok_iff.mpr
      ⟨hd.ne', ms, (Canonical.ofEntries_eq_ok_iff _ _).mpr hms, rfl⟩⟩
  | _ => exact hv.elim

/-- A plain value with a tree can be stored if its document holds no integer that is too long and no
surrogate. -/
theorem storable_iff_of_ofValueAt {v : Value} (hv : Plain v) {depth : Nat} {place : Location}
    {c : Canonical} (h : Canonical.ofValueAt depth place v = .ok c) :
    Storable v ↔ c.toJson.hasOversized = false ∧ c.toJson.hasSurrogate = false := by
  induction v generalizing depth place c with
  | null | bool =>
    cases h
    exact iff_of_true trivial ⟨rfl, rfl⟩
  | int n =>
    cases h
    exact (storable_int_iff n).trans (and_iff_left rfl).symm
  | float x =>
    obtain ⟨hx, rfl⟩ := Canonical.ofFloat_eq_ok h
    exact iff_of_true hx ⟨rfl, rfl⟩
  | text t =>
    cases h
    exact (and_iff_right rfl).symm
  | list items ih =>
    obtain ⟨_, cs, hcs, rfl⟩ := Canonical.ofValueAt_list_eq_ok_iff.mp h
    rw [plain_list_iff] at hv
    rw [storable_list_iff, Canonical.toJson_list, Json.hasOversized_list_eq_false,
      Json.hasSurrogate_list_eq_false, ← forall₂_and, List.forall_mem_map]
    apply forall_mem_iff_of_forall₂ (Canonical.forall₂_ofItems hcs)
    rintro v hmem c ⟨p, hp⟩
    exact ih v hmem (hv v hmem) hp
  | dict entries ih =>
    obtain ⟨_, ms, hms, rfl⟩ := Canonical.ofValueAt_dict_eq_ok_iff.mp h
    rw [plain_dict_iff] at hv
    rw [storable_dict_iff, Canonical.toJson_object, Json.hasOversized_object_eq_false,
      Json.hasSurrogate_object_eq_false, ← forall₂_and, List.forall_mem_map]
    apply forall_mem_iff_of_forall₂ ((Canonical.ofEntries_eq_ok_iff _ _).mp hms)
    rintro e hmem m ⟨hkey, hp⟩
    rw [Canonical.text?_of_ofValue? hkey, (ih e hmem).2 (hv e hmem).2 hp]
    simp only [Option.some.injEq, exists_eq_left', Prod.map_fst, Prod.map_snd]
    exact and_left_comm
  | _ => exact hv.elim

end CanonStore.Value
