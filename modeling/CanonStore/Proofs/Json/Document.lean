import CanonStore.Json.OfValue
import CanonStore.Proofs.Json.Bounds
import CanonStore.Proofs.Json.Indented
import CanonStore.Proofs.Value.Storable

/-!
# Values shown as documents

The document that shows a value to people is the value itself, if the value is literal and can be stored, and if it
is not nested too deeply: nothing in it is turned into something else, and the lines that show it are read back as
the same value. Main statement: `exists_document`.
-/

namespace CanonStore

namespace Value

/-! ## Literal values -/

mutual

/-- Nothing in the value is a member, a record or an entry. -/
def Literal : Value → Prop
  | .textMember _ _ | .intMember _ _ | .member _ _ | .record _ _ | .entry _ _ => False
  | .list items | .tuple items => ItemsLiteral items
  | .dict entries => EntriesLiteral entries
  | _ => True

/-- All items are literal. -/
def ItemsLiteral : List Value → Prop
  | [] => True
  | v :: rest => Literal v ∧ ItemsLiteral rest

/-- All keys and all values are literal. -/
def EntriesLiteral : List (Value × Value) → Prop
  | [] => True
  | (k, v) :: rest => (Literal k ∧ Literal v) ∧ EntriesLiteral rest

end

theorem itemsLiteral_iff (items : List Value) : ItemsLiteral items ↔ ∀ v ∈ items, Literal v :=
  iff_forall_mem_of_cons trivial (fun _ _ => Iff.rfl) items

theorem literal_list_iff (items : List Value) : Literal (.list items) ↔ ∀ v ∈ items, Literal v :=
  itemsLiteral_iff items

theorem literal_dict_iff (entries : List (Value × Value)) :
    Literal (.dict entries) ↔ ∀ e ∈ entries, Literal e.1 ∧ Literal e.2 := by
  show EntriesLiteral entries ↔ _
  exact iff_forall_mem_of_cons trivial (fun _ _ => Iff.rfl) entries

/-- A literal key that is a text is nothing else than that. -/
theorem Literal.eq_text {k : Value} {t : Text} (h : Literal k) (ht : k.text? = some t) : k = .text t := by
  cases k with
  | text u =>
    cases ht
    rfl
  | textMember => exact h.elim
  | _ => cases ht

/-- A literal value that can be stored is what some document denotes. -/
theorem exists_toValue_eq {v : Value} (hl : Literal v) (hv : Storable v) : ∃ j : Json, j.toValue = v := by
  induction v with
  | null => exact ⟨.null, rfl⟩
  | bool b => exact ⟨.bool b, rfl⟩
  | int n => exact ⟨.int n, rfl⟩
  | float x => exact ⟨.float x, rfl⟩
  | text t => exact ⟨.text t, rfl⟩
  | list items ih =>
    rw [literal_list_iff] at hl
    rw [storable_list_iff] at hv
    obtain ⟨js, hjs⟩ := exists_forall₂_of_forall fun v hmem => ih v hmem (hl v hmem) (hv v hmem)
    refine ⟨.list js, ?_⟩
    rw [Json.toValue_list, ← List.map_id items]
    exact congrArg Value.list (map_eq_map_iff_forall₂.mpr hjs.flip)
  | dict entries ih =>
    rw [literal_dict_iff] at hl
    rw [storable_dict_iff] at hv
    have hmember : ∀ e ∈ entries, ∃ m : Text × Json, (Value.text m.1, m.2.toValue) = e := by
      intro e he
      -- A key that can be stored shows a text, and a literal one is nothing besides.
      obtain ⟨⟨t, ht, _⟩, hvalue⟩ := hv e he
      obtain ⟨j, hj⟩ := (ih e he).2 (hl e he).2 hvalue
      exact ⟨(t, j), Prod.ext ((hl e he).1.eq_text ht).symm hj⟩
    obtain ⟨ms, hms⟩ := exists_forall₂_of_forall hmember
    refine ⟨.object ms, ?_⟩
    rw [Json.toValue_object, ← List.map_id entries]
    exact congrArg Value.dict (map_eq_map_iff_forall₂.mpr hms.flip)
  | _ => exact hv.elim

end Value

namespace Json

variable {depth : Nat} {j : Json}

/-! ## The value of a document -/

/-- A document that can be stored holds no integer that is too long, and no surrogate. -/
theorem bounds_of_storable (h : j.toValue.Storable) : hasOversized j = false ∧ hasSurrogate j = false := by
  induction j with
  | null | bool | float => exact ⟨rfl, rfl⟩
  | int n => exact ⟨(Value.storable_int_iff n).mp h, rfl⟩
  | text t => exact ⟨rfl, h⟩
  | list items ih =>
    rw [toValue_list, Value.storable_list_iff, List.forall_mem_map] at h
    rw [hasOversized_list_eq_false, hasSurrogate_list_eq_false, ← forall₂_and]
    exact fun j hj => ih j hj (h j hj)
  | object members ih =>
    rw [toValue_object, Value.storable_dict_iff, List.forall_mem_map] at h
    rw [hasOversized_object_eq_false, hasSurrogate_object_eq_false, ← forall₂_and]
    intro m hm
    obtain ⟨⟨t, ht, hkey⟩, hvalue⟩ := h m hm
    obtain rfl := Option.some.inj ht
    obtain ⟨hdigits, hsurrogate⟩ := ih m hm hvalue
    exact ⟨hdigits, hkey, hsurrogate⟩

/-- A document that can be stored is readable, if it is not nested too deeply. -/
theorem readable_of_storable (h : j.toValue.Storable) (hn : j.toValue.nesting ≤ depth) : Readable depth j := by
  induction j generalizing depth with
  | null | bool | text => trivial
  | int n => exact (Value.storable_int_iff n).mp h
  | float x => exact h
  | list items ih =>
    rw [toValue_list, Value.storable_list_iff, List.forall_mem_map] at h
    rw [toValue_list, Value.nesting_list_le_iff, List.forall_mem_map] at hn
    rw [readable_list_iff]
    exact ⟨hn.1, fun j hj => ih j hj (h j hj) (hn.2 j hj)⟩
  | object members ih =>
    rw [toValue_object, Value.storable_dict_iff, List.forall_mem_map] at h
    rw [toValue_object, Value.nesting_dict_le_iff, List.forall_mem_map] at hn
    rw [readable_object_iff]
    exact ⟨hn.1, fun m hm => ih m hm (h m hm).2 (hn.2 m hm).2⟩

/-- A document that denotes a wellformed value repeats no key. -/
theorem distinctKeys_of_wellformed (h : j.toValue.Wellformed) : DistinctKeys j := by
  induction j with
  | null | bool | int | float | text => trivial
  | list items ih =>
    rw [toValue_list] at h
    have hitems := (Value.itemsWellformed_iff _).mp h
    rw [List.forall_mem_map] at hitems
    rw [distinctKeys_list_iff]
    exact fun j hj => ih j hj (hitems j hj)
  | object members ih =>
    rw [toValue_object] at h
    have hvalues := (Value.entriesWellformed_iff _).mp h.2
    rw [List.forall_mem_map] at hvalues
    rw [distinctKeys_object_iff]
    refine ⟨Value.nodup_texts h.1 (List.forall₂_map_left_iff.mpr (List.forall₂_same.mpr fun _ _ => rfl)), ?_⟩
    exact fun m hm => ih m hm (hvalues m hm)

/-! ## The document of a value -/

theorem ofItems_toValue {js : List Json} (h : ∀ j ∈ js, ofValueAt depth j.toValue = .ok j) :
    ofItems depth (js.map toValue) = .ok js := by
  induction js with
  | nil => rfl
  | cons j js ih =>
    obtain ⟨hj, hrest⟩ := List.forall_mem_cons.mp h
    rw [List.map_cons, ofItems, hj, ih hrest]
    rfl

theorem ofEntries_toValue {ms : List (Text × Json)} (h : ∀ m ∈ ms, ofValueAt depth m.2.toValue = .ok m.2) :
    ofEntries depth (ms.map (Prod.map Value.text toValue)) = .ok ms := by
  induction ms with
  | nil => rfl
  | cons m ms ih =>
    obtain ⟨hm, hrest⟩ := List.forall_mem_cons.mp h
    rw [List.map_cons, Prod.map, ofEntries, hm, ih hrest]
    rfl

/-- What a document denotes is shown as that document, within the bounds. -/
theorem ofValueAt_toValue (h : Admitted depth j) : ofValueAt depth j.toValue = .ok j := by
  induction j generalizing depth with
  | null | bool | float | text => rfl
  | int n =>
    have hdigits : isOversized n = false := h.1
    rw [toValue, ofValueAt, ofInt, hdigits, if_neg Bool.false_ne_true]
  | list items ih =>
    rw [admitted_list_iff] at h
    rw [toValue_list, ofValueAt, if_neg h.1.ne', ofItems_toValue fun j hj => ih j hj (h.2 j hj)]
    rfl
  | object members ih =>
    rw [admitted_object_iff] at h
    rw [toValue_object, ofValueAt, if_neg h.1.ne', ofEntries_toValue fun m hm => ih m hm (h.2 m hm)]
    rfl

/-- A literal value that can be stored is shown as the document that denotes it, and that is read back from its
lines. -/
theorem exists_document {v : Value} (hl : v.Literal) (hw : v.Wellformed) (hv : v.Storable)
    (hn : v.nesting ≤ maxValueDepth) :
    ∃ j, ofValue v = .ok j ∧ read (writeIndented j ++ [0x0A]) = .ok j ∧ j.toValue = v := by
  obtain ⟨j, rfl⟩ := Value.exists_toValue_eq hl hv
  obtain ⟨hdigits, hsurrogate⟩ := bounds_of_storable hv
  -- The reader goes a little deeper than the writer.
  have hread : j.toValue.nesting ≤ maxDepth := hn.trans (by decide)
  exact ⟨j, ofValueAt_toValue ⟨hdigits, hn⟩,
    read_writeIndented (readable_of_storable hv hread) hsurrogate (distinctKeys_of_wellformed hw), rfl⟩

theorem read_nil_ne (j : Json) : read [] ≠ .ok j := by
  simp [read, readUnmarked, readRaw, skipBlanks, value]

end Json

end CanonStore
