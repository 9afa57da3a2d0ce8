import CanonStore.Proofs.Parts
import CanonStore.Value

/-!
# Values as trees

`Value.inductionOn` is the induction on values: the case of a container assumes the statement for all
its parts, keys included. A value is `Wellformed` if every dictionary in it has keys that differ from
one another, and every entry type names of fields that do; values of the library are so by
construction, since a dictionary is built one entry at a time.
-/

namespace CanonStore

namespace Value

/-- Induction on values. -/
@[elab_as_elim, induction_eliminator]
theorem inductionOn {P : Value → Prop} (null : P .null) (bool : ∀ b, P (.bool b))
    (int : ∀ n, P (.int n)) (float : ∀ x, P (.float x)) (text : ∀ t, P (.text t))
    (textMember : ∀ m t, P (.textMember m t)) (intMember : ∀ m n, P (.intMember m n))
    (member : ∀ m v, P v → P (.member m v))
    (list : ∀ items : List Value, (∀ v ∈ items, P v) → P (.list items))
    (tuple : ∀ items : List Value, (∀ v ∈ items, P v) → P (.tuple items))
    (dict : ∀ entries : List (Value × Value), (∀ e ∈ entries, P e.1 ∧ P e.2) → P (.dict entries))
    (bytes : ∀ b, P (.bytes b)) (bytearray : ∀ b, P (.bytearray b)) (moment : ∀ m, P (.moment m))
    (date : ∀ d, P (.date d))
    (record : ∀ type (fields : List (Text × Value)), (∀ f ∈ fields, P f.2) → P (.record type fields))
    (entry : ∀ type (fields : List (Text × Value)), (∀ f ∈ fields, P f.2) → P (.entry type fields))
    (foreign : ∀ kind, P (.foreign kind)) (endless : ∀ shape, P (.endless shape)) (v : Value) : P v :=
  @Value.rec P (fun items => ∀ v ∈ items, P v) (fun entries => ∀ e ∈ entries, P e.1 ∧ P e.2)
    (fun fields => ∀ f ∈ fields, P f.2) (fun e => P e.1 ∧ P e.2) (fun f => P f.2)
    null bool int float text textMember intMember member list tuple dict bytes bytearray moment date
    record entry foreign endless
    (fun _ h => nomatch h) (fun _ _ hv hrest => List.forall_mem_cons.mpr ⟨hv, hrest⟩)
    (fun _ h => nomatch h) (fun _ _ he hrest => List.forall_mem_cons.mpr ⟨he, hrest⟩)
    (fun _ h => nomatch h) (fun _ _ hf hrest => List.forall_mem_cons.mpr ⟨hf, hrest⟩)
    (fun _ _ hk hv => ⟨hk, hv⟩) (fun _ _ hv => hv) v

/-! ## Wellformed values -/

mutual

/-- Keys of every dictionary differ from one another, and so do the names of fields of every entry. -/
def Wellformed : Value → Prop
  | .list items | .tuple items => ItemsWellformed items
  | .dict entries =>
    entries.Pairwise (fun e f => sameAs e.1 f.1 = false) ∧ EntriesWellformed entries
  | .member _ v => Wellformed v
  | .record _ fields => FieldsWellformed fields
  | .entry _ fields => (fields.map Prod.fst).Nodup ∧ FieldsWellformed fields
  | _ => True

/-- All items are wellformed. -/
def ItemsWellformed : List Value → Prop
  | [] => True
  | v :: rest => Wellformed v ∧ ItemsWellformed rest

/-- The values of all entries are wellformed. -/
def EntriesWellformed : List (Value × Value) → Prop
  | [] => True
  | (_, v) :: rest => Wellformed v ∧ EntriesWellformed rest

/-- The values of all fields are wellformed. -/
def FieldsWellformed : List (Text × Value) → Prop
  | [] => True
  | (_, v) :: rest => Wellformed v ∧ FieldsWellformed rest

end

mutual

/-- Decides whether a value is wellformed. -/
def decideWellformed : (v : Value) → Decidable (Wellformed v)
  | .list items | .tuple items => decideItems items
  | .dict entries => @instDecidableAnd _ _ inferInstance (decideEntries entries)
  | .member _ v => decideWellformed v
  | .record _ fields => decideFields fields
  | .entry _ fields => @instDecidableAnd _ _ inferInstance (decideFields fields)
  | .null | .bool _ | .int _ | .float _ | .text _ | .textMember _ _ | .intMember _ _ | .bytes _
  | .bytearray _ | .moment _ | .date _ | .foreign _ | .endless _ => .isTrue trivial

/-- Decides whether all items are wellformed. -/
def decideItems : (items : List Value) → Decidable (ItemsWellformed items)
  | [] => .isTrue trivial
  | v :: rest => @instDecidableAnd _ _ (decideWellformed v) (decideItems rest)

/-- Decides whether the values of all entries are wellformed. -/
def decideEntries : (entries : List (Value × Value)) → Decidable (EntriesWellformed entries)
  | [] => .isTrue trivial
  | (_, v) :: rest => @instDecidableAnd _ _ (decideWellformed v) (decideEntries rest)

/-- Decides whether the values of all fields are wellformed. -/
def decideFields : (fields : List (Text × Value)) → Decidable (FieldsWellformed fields)
  | [] => .isTrue trivial
  | (_, v) :: rest => @instDecidableAnd _ _ (decideWellformed v) (decideFields rest)

end

instance (v : Value) : Decidable (Wellformed v) := decideWellformed v

theorem itemsWellformed_iff (items : List Value) :
    ItemsWellformed items ↔ ∀ v ∈ items, Wellformed v :=
  iff_forall_mem_of_cons trivial (fun _ _ => Iff.rfl) items

theorem entriesWellformed_iff (entries : List (Value × Value)) :
    EntriesWellformed entries ↔ ∀ e ∈ entries, Wellformed e.2 :=
  iff_forall_mem_of_cons trivial (fun _ _ => Iff.rfl) entries

theorem fieldsWellformed_iff (fields : List (Text × Value)) :
    FieldsWellformed fields ↔ ∀ f ∈ fields, Wellformed f.2 :=
  iff_forall_mem_of_cons trivial (fun _ _ => Iff.rfl) fields

/-- Texts are one key exactly if they have the same code points, whether members or not. -/
theorem sameAs_of_text? {v w : Value} {t u : Text} (hv : v.text? = some t) (hw : w.text? = some u) :
    sameAs v w = decide (t = u) := by
  cases v with
  | text | textMember =>
    cases w with
    | text | textMember =>
      cases hv
      cases hw
      rfl
    | _ => exact nomatch hw
  | _ => exact nomatch hv

/-- A key is a text exactly if it shows that text. -/
theorem sameAs_text_iff {v : Value} {t : Text} : sameAs v (.text t) = true ↔ v.text? = some t := by
  cases htext : v.text? with
  | some u => rw [sameAs_of_text? htext (rfl : (Value.text t).text? = some t)]; simp
  | none =>
    refine iff_of_false ?_ nofun
    cases v <;> simp_all [sameAs, text?, number?]

/-- The text keys of a wellformed dictionary differ in their code points. -/
theorem text?_ne_of_sameAs {v w : Value} (h : sameAs v w = false) {t : Text} (hv : v.text? = some t) :
    w.text? ≠ some t := by
  intro hw
  rw [sameAs_of_text? hv hw, decide_eq_false_iff_not] at h
  exact h rfl

/-- The text keys of a wellformed dictionary are distinct texts. -/
theorem nodup_texts {α : Type} {entries : List (Value × Value)} {parts : List α} {text : α → Text}
    (hentries : entries.Pairwise fun e f => sameAs e.1 f.1 = false)
    (h : List.Forall₂ (fun e a => e.1.text? = some (text a)) entries parts) : (parts.map text).Nodup := by
  induction h with
  | nil => exact List.nodup_nil
  | @cons e a entries parts he hrest ih =>
    obtain ⟨hfirst, hentries⟩ := List.pairwise_cons.mp hentries
    rw [List.map_cons, List.nodup_cons]
    refine ⟨?_, ih hentries⟩
    intro hmem
    obtain ⟨b, hb, heq⟩ := List.mem_map.mp hmem
    obtain ⟨f, hf, hfb⟩ := exists_of_mem_right hrest hb
    exact text?_ne_of_sameAs (hfirst f hf) he (heq ▸ hfb)

/-- Keys that are the same texts as keys that differ from one another do so too. -/
theorem pairwise_of_texts {entries others : List (Value × Value)}
    (hentries : entries.Pairwise fun e f => sameAs e.1 f.1 = false)
    (h : List.Forall₂ (fun e f => ∃ t, e.1.text? = some t ∧ f.1.text? = some t) entries others) :
    others.Pairwise fun e f => sameAs e.1 f.1 = false := by
  have hnodup : (others.map fun f => f.1.text?.getD []).Nodup := by
    refine nodup_texts hentries (h.imp ?_)
    rintro e f ⟨t, he, hf⟩
    rw [he, hf, Option.getD_some]
  refine (List.pairwise_map.mp hnodup).imp_of_mem fun {e f} he hf hne => ?_
  obtain ⟨_, _, t, _, ht⟩ := exists_of_mem_right h he
  obtain ⟨_, _, u, _, hu⟩ := exists_of_mem_right h hf
  rw [ht, hu, Option.getD_some, Option.getD_some] at hne
  rw [sameAs_of_text? ht hu, decide_eq_false hne]

theorem wellformed_of_text? {v : Value} (h : v.text?.isSome) : v.Wellformed := by
  cases v with
  | text | textMember => trivial
  | _ => cases h

theorem wellformed_of_number? {v : Value} (h : v.number?.isSome) : v.Wellformed := by
  cases v with
  | bool | int | intMember | float => trivial
  | _ => cases h

/-- A dictionary of fields with different names. -/
theorem wellformed_ofFields {fields : List (Text × Value)} (hnames : (fields.map Prod.fst).Nodup)
    (h : ∀ f ∈ fields, f.2.Wellformed) : (ofFields fields).Wellformed := by
  refine ⟨List.pairwise_map.mpr ?_, (entriesWellformed_iff _).mpr (List.forall_mem_map.mpr h)⟩
  apply (List.pairwise_map.mp hnames).imp
  intro f g hne
  exact (sameAs_of_text? rfl rfl).trans (decide_eq_false hne)

/-! ## Entries set one by one -/

theorem setEntry_of_forall {key v : Value} {entries : List (Value × Value)}
    (h : ∀ e ∈ entries, sameAs e.1 key = false) : setEntry key v entries = entries ++ [(key, v)] := by
  induction entries with
  | nil => rfl
  | cons e rest ih =>
    obtain ⟨he, hrest⟩ := List.forall_mem_cons.mp h
    rw [setEntry, he, if_neg Bool.false_ne_true, ih hrest, List.cons_append]

theorem foldl_setEntry {entries acc : List (Value × Value)}
    (h : (acc ++ entries).Pairwise fun e f => sameAs e.1 f.1 = false) :
    entries.foldl (fun es e => setEntry e.1 e.2 es) acc = acc ++ entries := by
  induction entries generalizing acc with
  | nil => rw [List.foldl_nil, List.append_nil]
  | cons e rest ih =>
    have hkey : ∀ f ∈ acc, sameAs f.1 e.1 = false :=
      fun f hf => (List.pairwise_append.mp h).2.2 f hf e List.mem_cons_self
    rw [List.append_cons] at h
    rw [List.foldl_cons, setEntry_of_forall hkey, ih h, ← List.append_cons]

section Members

variable {P Q : Value → Prop}

theorem forall_mem_setEntry {key v : Value} (hkey : P key) (hv : Q v) {entries : List (Value × Value)}
    (h : ∀ e ∈ entries, P e.1 ∧ Q e.2) : ∀ e ∈ setEntry key v entries, P e.1 ∧ Q e.2 := by
  induction entries with
  | nil => exact List.forall_mem_singleton.mpr ⟨hkey, hv⟩
  | cons e rest ih =>
    rw [List.forall_mem_cons] at h
    rw [setEntry]
    split
    · exact List.forall_mem_cons.mpr ⟨⟨h.1.1, hv⟩, h.2⟩
    · exact List.forall_mem_cons.mpr ⟨h.1, ih h.2⟩

/-- What holds of all keys and of all values still holds after repeated keys are joined. -/
theorem forall_mem_joinEntries {entries : List (Value × Value)} (h : ∀ e ∈ entries, P e.1 ∧ Q e.2) :
    ∀ e ∈ joinEntries entries, P e.1 ∧ Q e.2 := by
  have hfold : ∀ acc : List (Value × Value), (∀ e ∈ acc, P e.1 ∧ Q e.2) →
      ∀ e ∈ entries.foldl (fun es e => setEntry e.1 e.2 es) acc, P e.1 ∧ Q e.2 := by
    induction entries with
    | nil => exact fun _ hacc => hacc
    | cons e rest ih =>
      intro acc hacc
      rw [List.forall_mem_cons] at h
      exact ih h.2 _ (forall_mem_setEntry h.1.1 h.1.2 hacc)
  exact hfold [] (List.forall_mem_nil _)

end Members

theorem lookup?_setEntry (key k : Text) (v : Value) (entries : List (Value × Value)) :
    lookup? key (setEntry (.text k) v entries) = if key = k then some v else lookup? key entries := by
  induction entries with
  | nil =>
    by_cases hkey : key = k
    · simp [setEntry, lookup?, text?, hkey]
    · simp [setEntry, lookup?, text?, hkey, Ne.symm hkey]
  | cons e rest ih =>
    unfold lookup? at ih ⊢
    rw [setEntry]
    -- Setting stops at the first entry of the key, and so does looking up.
    by_cases hsame : sameAs e.1 (.text k) = true
    · have htext := sameAs_text_iff.mp hsame
      by_cases hkey : key = k
      · simp [htext, hkey, hsame]
      · simp [htext, hkey, hsame, Ne.symm hkey]
    · have htext : e.1.text? ≠ some k := fun h => hsame (sameAs_text_iff.mpr h)
      rw [if_neg hsame]
      by_cases hhead : e.1.text? = some key
      · have hkey : key ≠ k := fun h => htext (h ▸ hhead)
        simp [hhead, hkey]
      · simp [hhead, ih]

/-- Keys that differ from one another still do after an entry is set. -/
theorem pairwise_setEntry (key v : Value) {entries : List (Value × Value)}
    (h : entries.Pairwise fun e f => sameAs e.1 f.1 = false) :
    (setEntry key v entries).Pairwise fun e f => sameAs e.1 f.1 = false := by
  induction entries with
  | nil => exact List.pairwise_singleton _ _
  | cons e rest ih =>
    obtain ⟨hfirst, hrest⟩ := List.pairwise_cons.mp h
    rw [setEntry]
    split
    · -- Only the value changes.
      exact List.pairwise_cons.mpr ⟨hfirst, hrest⟩
    · next hkey =>
      refine List.pairwise_cons.mpr ⟨fun f hf => ?_, ih hrest⟩
      exact (forall_mem_setEntry (P := fun k => sameAs e.1 k = false) (Q := fun _ => True)
        (Bool.eq_false_iff.mpr hkey) trivial (fun g hg => ⟨hfirst g hg, trivial⟩) f hf).1

theorem pairwise_joinEntries (entries : List (Value × Value)) :
    (joinEntries entries).Pairwise fun e f => sameAs e.1 f.1 = false := by
  have hfold : ∀ acc : List (Value × Value), acc.Pairwise (fun e f => sameAs e.1 f.1 = false) →
      (entries.foldl (fun es e => setEntry e.1 e.2 es) acc).Pairwise fun e f => sameAs e.1 f.1 = false := by
    induction entries with
    | nil => exact fun _ hacc => hacc
    | cons e rest ih => exact fun acc hacc => ih _ (pairwise_setEntry e.1 e.2 hacc)
  exact hfold [] .nil

/-- Entries whose keys differ are set as they are. -/
theorem joinEntries_of_pairwise {entries : List (Value × Value)}
    (h : entries.Pairwise fun e f => sameAs e.1 f.1 = false) : joinEntries entries = entries :=
  foldl_setEntry h

end Value

end CanonStore
