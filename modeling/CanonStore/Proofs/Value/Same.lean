import CanonStore.Proofs.Canonical.Text
import CanonStore.Document

/-!
# Equal values

`Value.Same` is equality of values as a reader of the store sees it: leaves have the same type and are
the same, items agree one by one, and entries agree up to their order, keys by their code points. A
`Plain` value is one that a document can hold without conversion; its canonical tree is a tree of the
same value (`same_toValue`).
-/

namespace CanonStore.Value

open Json (exists_list_of_same exists_object_of_same)

/-! ## Equality -/

mutual

/-- The same value, but for the order of entries. -/
def Same : Value → Value → Prop
  | .list items, .list others | .tuple items, .tuple others => ItemsSame items others
  | .dict entries, .dict others => EntriesSame entries others
  | .record s fields, .record t others => s = t ∧ FieldsSame fields others
  | v, w => v = w
termination_by structural v => v

/-- The same items one by one. -/
def ItemsSame : List Value → List Value → Prop
  | [], others => others = []
  | v :: rest, others => ∃ w ws, others = w :: ws ∧ Same v w ∧ ItemsSame rest ws
termination_by structural items => items

/-- Each entry has one of its own among the others, under the same text and with the same value. -/
def EntriesSame : List (Value × Value) → List (Value × Value) → Prop
  | [], others => others = []
  | (k, v) :: rest, others =>
    ∃ before l w after, others = before ++ (l, w) :: after ∧ (∃ t, k.text? = some t ∧ l.text? = some t) ∧
      Same v w ∧ EntriesSame rest (before ++ after)
termination_by structural entries => entries

/-- The same fields one by one. -/
def FieldsSame : List (Text × Value) → List (Text × Value) → Prop
  | [], others => others = []
  | (name, v) :: rest, others =>
    ∃ w ws, others = (name, w) :: ws ∧ Same v w ∧ FieldsSame rest ws
termination_by structural fields => fields

end

/-- Entries under one text with the same value. -/
def EntrySame (e f : Value × Value) : Prop :=
  (∃ t, e.1.text? = some t ∧ f.1.text? = some t) ∧ Same e.2 f.2

theorem itemsSame_iff (items others : List Value) :
    ItemsSame items others ↔ List.Forall₂ Same items others :=
  iff_forall₂_of_cons (fun _ => Iff.rfl) fun _ _ _ => Iff.rfl

theorem fieldsSame_iff (fields others : List (Text × Value)) :
    FieldsSame fields others ↔ List.Forall₂ (fun f g => f.1 = g.1 ∧ Same f.2 g.2) fields others := by
  apply iff_forall₂_of_cons (fun _ => Iff.rfl)
  intro f rest others
  constructor
  · rintro ⟨w, ws, rfl, hvw, hrest⟩
    exact ⟨(f.1, w), ws, rfl, ⟨rfl, hvw⟩, hrest⟩
  · rintro ⟨⟨_, w⟩, ws, rfl, ⟨rfl, hvw⟩, hrest⟩
    exact ⟨w, ws, rfl, hvw, hrest⟩

/-- Entries are the same if the others can be put into an order in which they pair off. -/
theorem entriesSame_iff (entries others : List (Value × Value)) :
    EntriesSame entries others ↔ ∃ ordered, List.Forall₂ EntrySame entries ordered ∧ ordered.Perm others := by
  apply iff_exists_perm_of_cons (fun _ => Iff.rfl)
  intro e rest others
  constructor
  · rintro ⟨before, l, w, after, rfl, hkey, hvw, hrest⟩
    exact ⟨before, (l, w), after, rfl, ⟨hkey, hvw⟩, hrest⟩
  · rintro ⟨before, f, after, rfl, hef, hrest⟩
    exact ⟨before, f.1, f.2, after, rfl, hef.1, hef.2, hrest⟩

/-- Nothing but a text is the same as a text. -/
theorem Same.eq_of_text? {v w : Value} (h : Same v w) (hv : v.text?.isSome) : w = v := by
  cases v with
  | text | textMember => exact h.symm
  | _ => cases hv

/-- Nothing but a number is the same as a number. -/
theorem Same.eq_of_number? {v w : Value} (h : Same v w) (hv : v.number?.isSome) : w = v := by
  cases v with
  | bool | int | intMember | float => exact h.symm
  | _ => cases hv

/-- Only dictionaries are the same as a dictionary. -/
theorem Same.exists_dict {entries : List (Value × Value)} {w : Value} (h : Same (.dict entries) w) :
    ∃ others, w = .dict others ∧ EntriesSame entries others := by
  cases w with
  | dict others => exact ⟨others, rfl, h⟩
  | _ => cases h

/-- Only lists are the same as a list. -/
theorem Same.exists_list {items : List Value} {w : Value} (h : Same (.list items) w) :
    ∃ others, w = .list others ∧ List.Forall₂ Same items others := by
  cases w with
  | list others => exact ⟨others, rfl, (itemsSame_iff _ _).mp h⟩
  | _ => cases h

/-- Equal values count as true in a test, or neither of them does. -/
theorem Same.isTrue_eq {v w : Value} (h : Same v w) : v.isTrue = w.isTrue := by
  -- Containers count as true exactly if they are not empty, and the same ones have as many parts.
  cases v with
  | list items =>
    obtain ⟨others, rfl, hitems⟩ := h.exists_list
    cases hitems <;> rfl
  | tuple items =>
    cases w with
    | tuple others =>
      have hitems : List.Forall₂ Same items others := (itemsSame_iff _ _).mp h
      cases hitems <;> rfl
    | _ => cases h
  | dict entries =>
    obtain ⟨others, rfl, hentries⟩ := h.exists_dict
    obtain ⟨ordered, hpairs, hperm⟩ := (entriesSame_iff _ _).mp hentries
    have hlength : entries.length = others.length := hpairs.length_eq.trans hperm.length_eq
    cases entries <;> cases others <;> first | rfl | cases hlength
  | record =>
    cases w with
    | record => rfl
    | _ => cases h
  | _ =>
    cases h
    rfl

/-! ## Entries at a key -/

section Entries

variable {entries others : List (Value × Value)} {key : Text}

/-- Where the keys are distinct texts, looking a key up finds its entry. -/
theorem lookup?_eq_some_iff (hkeys : (entries.map fun e => e.1.text?).Nodup) {v : Value} :
    lookup? key entries = some v ↔ ∃ e ∈ entries, e.1.text? = some key ∧ e.2 = v := by
  simp only [lookup?, Option.map_eq_some_iff]
  constructor
  · rintro ⟨e, he, rfl⟩
    have hkey := List.find?_some he
    exact ⟨e, List.mem_of_find?_eq_some he, of_decide_eq_true hkey, rfl⟩
  · rintro ⟨e, he, hkey, rfl⟩
    have hfound : (entries.find? fun e => e.1.text? = some key).isSome :=
      List.find?_isSome.mpr ⟨e, he, decide_eq_true hkey⟩
    obtain ⟨f, hf⟩ := Option.isSome_iff_exists.mp hfound
    -- No other entry has the key.
    have hfkey : f.1.text? = some key := by simpa using List.find?_some hf
    have hfe : f = e := List.inj_on_of_nodup_map hkeys (List.mem_of_find?_eq_some hf) he (hfkey.trans hkey.symm)
    exact ⟨e, hfe ▸ hf, rfl⟩

/-- The order of entries does not matter if their keys differ. -/
theorem lookup?_of_perm (hkeys : (entries.map fun e => e.1.text?).Nodup) (h : entries.Perm others) (key : Text) :
    lookup? key entries = lookup? key others := by
  apply Option.ext
  intro v
  rw [lookup?_eq_some_iff hkeys, lookup?_eq_some_iff ((h.map _).nodup_iff.mp hkeys)]
  simp only [h.mem_iff]

theorem rel_lookup?_of_forall₂ (h : List.Forall₂ EntrySame entries others) (key : Text) :
    Option.Rel Same (lookup? key entries) (lookup? key others) := by
  induction h with
  | nil => exact .none
  | @cons e f entries others hef _ ih =>
    obtain ⟨⟨t, he, hf⟩, hvalue⟩ := hef
    unfold lookup? at ih ⊢
    by_cases hkey : t = key
    · rw [List.find?_cons_of_pos (by simp [he, hkey]), List.find?_cons_of_pos (by simp [hf, hkey])]
      exact .some hvalue
    · rw [List.find?_cons_of_neg (by simp [he, hkey]), List.find?_cons_of_neg (by simp [hf, hkey])]
      exact ih

/-- Under every key equal entries hold equal values, or none. -/
theorem EntriesSame.rel_lookup? (h : EntriesSame entries others) (hkeys : (entries.map fun e => e.1.text?).Nodup)
    (key : Text) : Option.Rel Same (lookup? key entries) (lookup? key others) := by
  obtain ⟨ordered, hpairs, hperm⟩ := (entriesSame_iff _ _).mp h
  have htexts : entries.map (fun e => e.1.text?) = ordered.map fun e => e.1.text? := by
    rw [← List.forall₂_eq_eq_eq, List.forall₂_map_left_iff, List.forall₂_map_right_iff]
    exact hpairs.imp fun e f ⟨⟨t, he, hf⟩, _⟩ => he.trans hf.symm
  rw [← lookup?_of_perm (htexts ▸ hkeys) hperm]
  exact rel_lookup?_of_forall₂ hpairs key

/-- Dictionaries that are the same give the same under a key. -/
theorem EntriesSame.exists_lookup? (h : EntriesSame entries others)
    (hkeys : (entries.map fun e => e.1.text?).Nodup) {v : Value} (hv : lookup? key entries = some v) :
    ∃ w, lookup? key others = some w ∧ Same v w := by
  have hrel := h.rel_lookup? hkeys key
  rw [hv] at hrel
  cases hlookup : lookup? key others with
  | none =>
    rw [hlookup] at hrel
    cases hrel
  | some w =>
    rw [hlookup] at hrel
    cases hrel with
    | some hvw => exact ⟨w, rfl, hvw⟩

/-- Equal entries have the same keys. -/
theorem EntriesSame.exists_key (h : EntriesSame entries others) :
    ∀ f ∈ others, ∃ e ∈ entries, f.1.text? = e.1.text? := by
  obtain ⟨ordered, hpairs, hperm⟩ := (entriesSame_iff _ _).mp h
  intro f hf
  obtain ⟨e, he, ⟨t, het, hft⟩, _⟩ := exists_of_mem_right hpairs (hperm.mem_iff.mpr hf)
  exact ⟨e, he, hft.trans het.symm⟩

theorem lookup?_ofFields (key : Text) (fields : List (Text × Value)) :
    lookup? key (fields.map fun f => (.text f.1, f.2)) = field? key fields := by
  simp only [lookup?, field?, List.find?_map, Option.map_map, Function.comp_def, text?, Option.some.injEq]

/-- What is the same as a dictionary of fields has the names of the fields for keys, and equal values under them. -/
theorem Same.exists_entries {fields : List (Text × Value)} {w : Value} (h : Same (ofFields fields) w)
    (hnames : (fields.map Prod.fst).Nodup) :
    ∃ others, w = .dict others ∧ (∀ e ∈ others, ∃ name ∈ fields.map Prod.fst, e.1.text? = some name) ∧
      ∀ key v, field? key fields = some v → ∃ u, lookup? key others = some u ∧ Same v u := by
  obtain ⟨others, rfl, hothers⟩ := h.exists_dict
  refine ⟨others, rfl, ?_, ?_⟩
  · intro e he
    obtain ⟨f, hf, hkey⟩ := hothers.exists_key e he
    obtain ⟨field, hfield, rfl⟩ := List.mem_map.mp hf
    exact ⟨field.1, List.mem_map_of_mem hfield, hkey⟩
  · intro key v hv
    have hkeys : ((fields.map fun f => (Value.text f.1, f.2)).map fun e => e.1.text?).Nodup := by
      have htexts := hnames.map (Option.some_injective Text)
      rw [List.map_map] at htexts ⊢
      exact htexts
    exact hothers.exists_lookup? hkeys ((lookup?_ofFields key fields).trans hv)

end Entries

/-! ## Plain values -/

mutual

/-- The value is made of nothing, truth values, numbers, texts, lists and dictionaries whose keys are
texts. -/
def Plain : Value → Prop
  | .null | .bool _ | .int _ | .float _ | .text _ => True
  | .list items => ItemsPlain items
  | .dict entries => EntriesPlain entries
  | _ => False

/-- All items are plain. -/
def ItemsPlain : List Value → Prop
  | [] => True
  | v :: rest => Plain v ∧ ItemsPlain rest

/-- The keys of all entries are texts, and the values are plain. -/
def EntriesPlain : List (Value × Value) → Prop
  | [] => True
  | (k, v) :: rest => (k.text?.isSome ∧ Plain v) ∧ EntriesPlain rest

end

theorem plain_list_iff (items : List Value) : Plain (.list items) ↔ ∀ v ∈ items, Plain v := by
  show ItemsPlain items ↔ _
  exact iff_forall_mem_of_cons trivial (fun _ _ => Iff.rfl) items

theorem plain_dict_iff (entries : List (Value × Value)) :
    Plain (.dict entries) ↔ ∀ e ∈ entries, e.1.text?.isSome ∧ Plain e.2 := by
  show EntriesPlain entries ↔ _
  exact iff_forall_mem_of_cons trivial (fun _ _ => Iff.rfl) entries

/-- The keys of a plain dictionary are texts. -/
theorem isSome_text?_of_plain {v : Value} {entries : List (Value × Value)} (hv : v.Plain)
    (hentries : v.dictEntries? = some entries) : ∀ e ∈ entries, e.1.text?.isSome := by
  cases v with
  | dict =>
    cases hentries
    exact fun e he => ((plain_dict_iff _).mp hv e he).1
  | endless => cases hv
  | _ => cases hentries

/-- Documents denote plain values. -/
theorem plain_toValue (j : Json) : Plain j.toValue := by
  induction j with
  | null | bool | int | float | text => trivial
  | list items ih =>
    rw [Json.toValue_list, plain_list_iff, List.forall_mem_map]
    exact ih
  | object members ih =>
    rw [Json.toValue_object, plain_dict_iff, List.forall_mem_map]
    exact fun m hm => ⟨rfl, ih m hm⟩

theorem text?_isSome_of_ofValue? {k : Value} {l : Label} (h : Label.ofValue? k = some l) :
    k.text?.isSome := by
  rw [Canonical.text?_of_ofValue? h]
  rfl

section NoForeignPart

variable {depth : Nat} {place : Location}

/-- The walk goes on past plain items only, so if it comes to the end they all were. -/
theorem forall_plain_of_firstForeignItem {items : List Value}
    (hitem : ∀ v ∈ items, ∀ p, firstForeignAt depth p v = .ok none → Plain v) {index : Nat}
    (h : firstForeignItem depth place index items = .ok none) : ∀ v ∈ items, Plain v := by
  induction items generalizing index with
  | nil => exact fun _ hv => nomatch hv
  | cons v rest ih =>
    rw [List.forall_mem_cons] at hitem ⊢
    rw [firstForeignItem] at h
    split at h
    · next hv => exact ⟨hitem.1 _ hv, ih hitem.2 h⟩
    · next hne => exact absurd h hne

theorem forall_plain_of_firstForeignEntry {entries : List (Value × Value)}
    (hentry : ∀ e ∈ entries, ∀ p, firstForeignAt depth p e.2 = .ok none → Plain e.2)
    (h : firstForeignEntry depth place entries = .ok none) :
    ∀ e ∈ entries, e.1.text?.isSome ∧ Plain e.2 := by
  induction entries with
  | nil => exact fun _ he => nomatch he
  | cons e rest ih =>
    rw [List.forall_mem_cons] at hentry ⊢
    rw [firstForeignEntry] at h
    split at h
    · cases h
    · next l hl =>
      split at h
      · next hv => exact ⟨⟨text?_isSome_of_ofValue? hl, hentry.1 _ hv⟩, ih hentry.2 h⟩
      · next hne => exact absurd h hne

/-- Where no foreign part is found there is none. -/
theorem plain_of_firstForeignAt {v : Value} (h : firstForeignAt depth place v = .ok none) : Plain v := by
  induction v generalizing depth place with
  | null | bool | int | float | text => trivial
  | list items ih =>
    rw [firstForeignAt] at h
    split at h
    · cases h
    · exact (plain_list_iff items).mpr (forall_plain_of_firstForeignItem (fun v hv _ => ih v hv) h)
  | dict entries ih =>
    rw [firstForeignAt] at h
    split at h
    · cases h
    · exact (plain_dict_iff entries).mpr (forall_plain_of_firstForeignEntry (fun e he _ => (ih e he).2) h)
  | _ => cases h

end NoForeignPart

/-! ## Trees of plain values -/

/-- A document that is the same as that of a plain value denotes the same value. -/
theorem same_toValue {v : Value} (hv : Plain v) {depth : Nat} {place : Location} {c : Canonical}
    (h : Canonical.ofValueAt depth place v = .ok c) {j : Json} (hj : c.toJson.Same j) :
    Same v j.toValue := by
  induction v generalizing depth place c j with
  | null | bool | int | text =>
    cases h
    cases j <;> cases hj
    rfl
  | float x =>
    obtain ⟨_, rfl⟩ := Canonical.ofFloat_eq_ok h
    cases j <;> cases hj
    rfl
  | list items ih =>
    obtain ⟨_, cs, hcs, rfl⟩ := Canonical.ofValueAt_list_eq_ok_iff.mp h
    rw [Canonical.toJson_list] at hj
    obtain ⟨others, rfl⟩ := exists_list_of_same hj
    rw [Json.same_list_iff, List.forall₂_map_left_iff] at hj
    rw [plain_list_iff] at hv
    rw [Json.toValue_list]
    refine (itemsSame_iff _ _).mpr (List.forall₂_map_right_iff.mpr ?_)
    apply forall₂_trans_of_mem (Canonical.forall₂_ofItems hcs) hj
    intro v hmem c j hvc hcj
    obtain ⟨p, hp⟩ := hvc
    exact ih v hmem (hv v hmem) hp hcj
  | dict entries ih =>
    obtain ⟨_, ms, hms, rfl⟩ := Canonical.ofValueAt_dict_eq_ok_iff.mp h
    rw [Canonical.toJson_object] at hj
    obtain ⟨others, rfl⟩ := exists_object_of_same hj
    obtain ⟨ordered, hpairs, hperm⟩ := (Json.same_object_iff _ _).mp hj
    rw [List.forall₂_map_left_iff] at hpairs
    rw [plain_dict_iff] at hv
    rw [Json.toValue_object]
    -- The members stand in the order of the entries before they are rearranged.
    refine (entriesSame_iff _ _).mpr ⟨_, List.forall₂_map_right_iff.mpr ?_, hperm.map _⟩
    refine forall₂_trans_of_mem ((Canonical.ofEntries_eq_ok_iff _ _).mp hms) hpairs
      fun e hmem m n hem hmn => ?_
    obtain ⟨hkey, hvalue⟩ := hmn
    exact ⟨⟨n.1, by rw [Canonical.text?_of_ofValue? hem.1, ← hkey]; rfl, rfl⟩,
      (ih e hmem).2 (hv e hmem).2 hem.2 hvalue⟩
  | _ => exact hv.elim

end CanonStore.Value
