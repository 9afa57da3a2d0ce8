import CanonStore.Proofs.Document.Refusal
import CanonStore.Proofs.Document.Storable

/-!
# What is loaded and stored again

A dictionary or a list that is loaded from any octets at all is a value that could have been stored, save
for what a document can spell and the canonical form cannot: floats that are not finite, and texts with
surrogates (`Portable`). The bound that the store sets on integers is kept by whatever the reader returns, but the
reader goes deeper than the writer, so that a value which is loaded may be nested too deeply to be stored. Main
statement: `encode_loaded_iff`.
-/

namespace CanonStore

namespace Value

mutual

/-- Every float in the value is finite, and no text in it holds a surrogate, keys included. -/
def Portable : Value → Prop
  | .float x => x.isFinite
  | .text t => t.any CodePoint.isSurrogate = false
  | .list items => ItemsPortable items
  | .dict entries => EntriesPortable entries
  | _ => True

/-- All items are portable. -/
def ItemsPortable : List Value → Prop
  | [] => True
  | v :: rest => Portable v ∧ ItemsPortable rest

/-- All keys and all values are portable. -/
def EntriesPortable : List (Value × Value) → Prop
  | [] => True
  | (k, v) :: rest => (Portable k ∧ Portable v) ∧ EntriesPortable rest

end

theorem portable_list_iff (items : List Value) : Portable (.list items) ↔ ∀ v ∈ items, Portable v := by
  show ItemsPortable items ↔ _
  exact iff_forall_mem_of_cons trivial (fun _ _ => Iff.rfl) items

theorem portable_dict_iff (entries : List (Value × Value)) :
    Portable (.dict entries) ↔ ∀ e ∈ entries, Portable e.1 ∧ Portable e.2 := by
  show EntriesPortable entries ↔ _
  exact iff_forall_mem_of_cons trivial (fun _ _ => Iff.rfl) entries

/-- A document without an integer that is too long can be stored if it is portable. -/
theorem storable_toValue_iff {j : Json} (h : j.hasOversized = false) :
    Storable j.toValue ↔ Portable j.toValue := by
  -- The two differ on integers only, and these are not oversized.
  induction j with
  | null | bool | float | text => exact Iff.rfl
  | int n => exact iff_of_true ((storable_int_iff n).mpr h) trivial
  | list items ih =>
    rw [Json.hasOversized_list_eq_false] at h
    rw [Json.toValue_list, storable_list_iff, portable_list_iff, List.forall_mem_map, List.forall_mem_map]
    exact forall₂_congr fun j hj => ih j hj (h j hj)
  | object members ih =>
    rw [Json.hasOversized_object_eq_false] at h
    rw [Json.toValue_object, storable_dict_iff, portable_dict_iff, List.forall_mem_map, List.forall_mem_map]
    apply forall₂_congr
    intro m hm
    apply and_congr _ (ih m hm (h m hm))
    show (∃ t, some m.1 = some t ∧ _) ↔ _
    simp only [Option.some.injEq, exists_eq_left']
    exact Iff.rfl

/-- A document that repeats no key denotes a wellformed value. -/
theorem wellformed_toValue {j : Json} (h : j.DistinctKeys) : Wellformed j.toValue := by
  induction j with
  | null | bool | int | float | text => trivial
  | list items ih =>
    rw [Json.distinctKeys_list_iff] at h
    rw [Json.toValue_list]
    apply (itemsWellformed_iff _).mpr
    rw [List.forall_mem_map]
    exact fun j hj => ih j hj (h j hj)
  | object members ih =>
    rw [Json.distinctKeys_object_iff] at h
    -- The keys are texts, so they differ as keys as well.
    have hfields : Json.toValue (.object members) = ofFields (members.map fun m => (m.1, m.2.toValue)) := by
      rw [Json.toValue_object, ofFields, List.map_map]
      rfl
    rw [hfields]
    apply wellformed_ofFields
    · rw [List.map_map]
      exact h.1
    · rw [List.forall_mem_map]
      exact fun m hm => ih m hm (h.2 m hm)

end Value

namespace Document

open Value (Same Portable)

variable {bytes : Bytes} {target : Target} {path : Option Text} {w : Value}

/-- What is loaded as a dictionary or a list is the document that is read, and of that kind. -/
theorem decode_container_eq_ok (htarget : target = .dict ∨ target = .list)
    (h : decode bytes target path = .ok w) :
    ∃ j, Json.readBytes bytes = .ok j ∧ w = j.toValue ∧ IsContainer w ∧ Target.ofValue w = target := by
  have hne : ∀ type, target ≠ .record type := by
    rintro type rfl
    simp at htarget
  obtain ⟨name, hname⟩ : ∃ name, target.name = .ok name := by
    rcases htarget with rfl | rfl <;> exact ⟨_, rfl⟩
  rcases decode_cases hname hne bytes path with ⟨j, v, hread, htaken, hv⟩ | ⟨_, hdeep⟩ | ⟨f, hf, _⟩
  · obtain rfl := Except.ok.inj (hv.symm.trans h)
    refine ⟨j, hread, ?_⟩
    -- Of all documents, only those of the kind are taken, as they are.
    rcases htarget with rfl | rfl
    · cases hj : j.toValue with
      | dict entries =>
        rw [hj] at htaken
        cases htaken
        exact ⟨rfl, .inl ⟨entries, rfl⟩, rfl⟩
      | _ =>
        rw [hj] at htaken
        cases htaken
    · cases hj : j.toValue with
      | list items =>
        rw [hj] at htaken
        cases htaken
        exact ⟨rfl, .inr ⟨items, rfl⟩, rfl⟩
      | _ =>
        rw [hj] at htaken
        cases htaken
  · rw [hdeep] at h
    cases h
  · rw [hf] at h
    cases h

/-- An object of one member is loaded as a dictionary of one entry. -/
theorem decode_one_member {k s : Text} {j : Json} (hblank : Json.StopsAt Json.isBlank s)
    (hvalue : Json.Gives (Json.value (Json.maxDepth - 1) s) j [0x7D])
    (hbytes : Text.ofDocument bytes = .ok (0x7B :: (Json.quote .fewest k ++ 0x3A :: s))) :
    decode bytes .dict path = .ok (.dict [(.text k, j.joined.toValue)]) := by
  have hmembers := Json.members_last (Json.quotable_fewest k) (Json.skipBlanks_of_stopsAt hblank) hvalue
    (Json.skipBlanks_cons (by decide) [])
  have hobject : Json.Gives (Json.value Json.maxDepth (0x7B :: (Json.quote .fewest k ++ 0x3A :: s)))
      (.object [(k, j)]) [] := by
    rw [Json.quote_append] at hmembers ⊢
    exact Json.value_object (by decide) (Json.skipBlanks_cons (by decide) _) hmembers
  have hread : Json.readUnmarked (0x7B :: (Json.quote .fewest k ++ 0x3A :: s))
      = .ok (.object [(k, j.joined)]) := by
    rw [Json.readUnmarked, Json.readRaw_of_value (Json.stopsAt_cons (by decide)) hobject rfl]
    rfl
  have hname : Target.dict.name = .ok "dict" := rfl
  have hne : ∀ type, Target.dict ≠ .record type := by simp
  exact decode_of_read hname hne (Json.readBytes_eq_ok_iff.mpr ⟨_, hbytes, hread⟩)

/-- What is loaded as a dictionary or a list is portable if it is stored again. A portable value is stored again
unless more than four hundred containers lie inside one another, for the writer does not go as deep as the reader.
What is stored again is loaded from its octets as the same value. -/
theorem encode_loaded_iff (htarget : target = .dict ∨ target = .list)
    (h : decode bytes target path = .ok w) (path' path'' : Option Text) :
    ((∃ octets, encode w path' = .ok octets) → w.Portable) ∧
      (w.nesting ≤ 400 → w.Portable → ∃ octets, encode w path' = .ok octets) ∧
      ∀ octets, encode w path' = .ok octets → ∃ u, decode octets target path'' = .ok u ∧ Same w u := by
  obtain ⟨j, hread, rfl, hc, hkind⟩ := decode_container_eq_ok htarget h
  obtain ⟨⟨hsize, _⟩, hkeys⟩ := Json.admitted_of_readBytes hread
  -- What was read is not oversized, so only its floats and its surrogates matter.
  have hportable := Value.storable_toValue_iff hsize
  refine ⟨?_, ?_, ?_⟩
  · rintro ⟨octets, hencode⟩
    exact hportable.mp (storable_of_encode hc hencode)
  · intro hnesting hw
    exact exists_encode_of_storable hc (hportable.mpr hw) (hnesting.trans (by decide))
  · intro octets hencode
    obtain ⟨k, hk, hsame⟩ := readBytes_of_encode hc (Value.wellformed_toValue hkeys) hencode
    have hloaded := decode_container hc hk hsame path''
    rw [hkind] at hloaded
    exact ⟨_, hloaded, hsame⟩

/-- An empty list in a dictionary comes back from the file that it is stored in. -/
theorem encode_loaded_iff_entries :
    decode [0x7B, 0x22, 0x61, 0x22, 0x3A, 0x5B, 0x5D, 0x7D] .dict none
        = .ok (.dict [(.text [0x61], .list [])]) ∧
      ∃ octets, encode (.dict [(.text [0x61], .list [])]) (some "store.json") = .ok octets ∧
        ∃ u, decode octets .dict none = .ok u ∧ Same (.dict [(.text [0x61], .list [])]) u := by
  have h : decode [0x7B, 0x22, 0x61, 0x22, 0x3A, 0x5B, 0x5D, 0x7D] .dict none
      = .ok (.dict [(.text [0x61], .list [])]) :=
    decode_one_member (Json.stopsAt_cons (by decide)) (Json.value_list_nil (by decide)) rfl
  obtain ⟨_, hstored, hloaded⟩ := encode_loaded_iff (.inl rfl) h (some "store.json") none
  obtain ⟨octets, hoctets⟩ := hstored (by decide) ⟨⟨rfl, trivial⟩, trivial⟩
  exact ⟨h, octets, hoctets, hloaded octets hoctets⟩

/-- A number that is none is loaded, but it is not stored. -/
theorem encode_loaded_nan :
    decode [0x7B, 0x22, 0x61, 0x22, 0x3A, 0x4E, 0x61, 0x4E, 0x7D] .dict none
        = .ok (.dict [(.text [0x61], .float .nan)]) ∧
      ¬ ∃ octets, encode (.dict [(.text [0x61], .float .nan)]) none = .ok octets := by
  have hword : Json.takeWord? [0x4E, 0x61, 0x4E, 0x7D] = some (.float .nan, [0x7D]) := rfl
  have hvalue : Json.Gives (Json.value (Json.maxDepth - 1) [0x4E, 0x61, 0x4E, 0x7D]) (.float .nan) [0x7D] :=
    Json.value_scalar (by decide) (by decide) (by decide) (Json.scalar_word hword)
  refine ⟨decode_one_member (Json.stopsAt_cons (by decide)) hvalue rfl, ?_⟩
  rintro ⟨octets, h⟩
  have hstorable := storable_of_encode (.inl ⟨_, rfl⟩) h
  exact absurd hstorable.1.2 Bool.false_ne_true

end Document

end CanonStore
