import CanonStore.Proofs.Document.Payload
import CanonStore.Proofs.Value.Storable

/-!
# Which containers are stored

A dictionary or a list is stored exactly if it can be, at every depth (`exists_encode_iff_storable`). That
what is stored can be stored needs no bound on the nesting; the other direction does, since a container
that is nested too deeply is refused whatever it holds.
-/

namespace CanonStore.Document

open Value (Plain Storable)

variable {v : Value} {path : Option Text}

/-- Nothing but what can be stored is stored. -/
theorem storable_of_encode (hc : IsContainer v) {bytes : Bytes} (h : encode v path = .ok bytes) :
    v.Storable := by
  obtain ⟨w, t, hpayload, htext, hbytes⟩ := encode_eq_ok_iff.mp h
  obtain ⟨rfl, hplain⟩ := payload_container hc hpayload
  obtain ⟨c, hcanon, hsize, rfl⟩ := Value.canonicalText_eq_ok_iff.mp htext
  have hread := Canonical.readable_ofValueAt hcanon hsize
  exact (Value.storable_iff_of_ofValueAt hplain hcanon).mpr
    ⟨hsize, (Json.exists_encode_write_iff hread).mp ⟨bytes, hbytes⟩⟩

/-- The payload of a plain container that is not nested too deeply is the container itself. -/
theorem payload_of_plain (hc : IsContainer v) (hv : Plain v) (hn : v.nesting ≤ Canonical.maxDepth) :
    payload v path = .ok v := by
  have hgate : v.firstForeign = .ok none := Value.firstForeignAt_of_plain hv hn .root
  have hrequire : requirePlain v.typeName v path = .ok v := requirePlain_eq_ok_iff.mpr ⟨hgate, rfl⟩
  obtain ⟨entries, rfl⟩ | ⟨items, rfl⟩ := hc
  · exact hrequire
  · exact hrequire

theorem exists_encode_of_storable (hc : IsContainer v) (hv : v.Storable)
    (hn : v.nesting ≤ Canonical.maxDepth) : ∃ bytes, encode v path = .ok bytes := by
  have hpayload : payload v path = .ok v := payload_of_plain hc hv.plain hn
  obtain ⟨c, hcanon⟩ := Value.exists_ofValueAt hv hn .root
  obtain ⟨hsize, hclean⟩ := (Value.storable_iff_of_ofValueAt hv.plain hcanon).mp hv
  have hread := Canonical.readable_ofValueAt hcanon hsize
  obtain ⟨bytes, hbytes⟩ := (Json.exists_encode_write_iff hread).mpr hclean
  have htext := Value.canonicalText_eq_ok_iff.mpr ⟨c, hcanon, hsize, rfl⟩
  exact ⟨bytes, encode_eq_ok_iff.mpr ⟨v, _, hpayload, htext, hbytes⟩⟩

/-- A dictionary or a list of at most 200 containers inside one another is stored exactly if each part of
it is nothing, a truth value, an integer of at most 4300 digits, a finite float, a text without
surrogates, a list, or a dictionary whose keys are such texts. -/
theorem exists_encode_iff_storable (hc : IsContainer v) (hn : v.nesting ≤ 200) (path : Option Text) :
    (∃ bytes, encode v path = .ok bytes) ↔ v.Storable := by
  constructor
  · rintro ⟨bytes, h⟩
    exact storable_of_encode hc h
  · intro hv
    exact exists_encode_of_storable hc hv (hn.trans (by decide))

/-- A member is a key that can be stored, but no value; neither is a tuple that lies further inside. -/
theorem exists_encode_iff_storable_entries :
    (∃ bytes, encode (.dict [(.textMember ⟨"Key", "A"⟩ "a", .list [.null, .text "\u00e9"])]) none
        = .ok bytes) ∧
      (¬ ∃ bytes, encode (.dict [(.text "a", .textMember ⟨"Key", "A"⟩ "a")]) none = .ok bytes) ∧
      ¬ ∃ bytes, encode (.list [.dict [], .list [.tuple []]]) (some "store.json") = .ok bytes := by
  refine ⟨(exists_encode_iff_storable (.inl ⟨_, rfl⟩) (by decide) none).mpr ?_, fun h => ?_, fun h => ?_⟩
  · exact ⟨⟨⟨"a", rfl, rfl⟩, trivial, rfl, trivial⟩, trivial⟩
  · exact ((exists_encode_iff_storable (.inl ⟨_, rfl⟩) (by decide) none).mp h).1.2
  · exact ((exists_encode_iff_storable (.inr ⟨_, rfl⟩) (by decide) (some "store.json")).mp h).2.1.1

end CanonStore.Document
