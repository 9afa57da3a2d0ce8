import CanonStore.Proofs.Canonical.Tree
import CanonStore.Proofs.Json.Grammar

/-!
# Canonical texts of values

The canonical text of a wellformed value is a document of strict JSON in its tightest form
(`isDocument_canonicalText`), and it is read as the document of the value's tree up to the order of
members (`read_canonicalText`). Since the text is written from the sorted document, and a text is read in
one way only, two values have one text exactly if their documents are the same (`canonicalText_eq_iff`).
-/

namespace CanonStore.Value

open Json (Readable DistinctKeys IsDocument)

theorem canonicalText_eq_ok_iff {v : Value} {t : Text} :
    v.canonicalText = .ok t ↔
      ∃ c, Canonical.ofValue .root v = .ok c ∧ c.toJson.hasOversized = false ∧ t = c.toJson.write := by
  rw [canonicalText, bind_eq_ok_iff]
  refine exists_congr fun c => and_congr_right fun _ => ?_
  by_cases hsize : c.toJson.hasOversized = true
  · simp only [hsize, if_true, reduceCtorEq, Bool.true_eq_false, false_and]
  · rw [Bool.not_eq_true] at hsize
    simp only [hsize, Bool.false_eq_true, if_false, Except.ok.injEq, true_and]
    exact eq_comm

/-- A value with a canonical text has a document that can be read back and repeats no key. -/
theorem exists_document {v : Value} (hv : v.Wellformed) {t : Text} (ht : v.canonicalText = .ok t) :
    ∃ c, Canonical.ofValue .root v = .ok c ∧ Readable Canonical.maxDepth c.toJson ∧
      DistinctKeys c.toJson ∧ t = c.toJson.write := by
  obtain ⟨c, hc, hsize, rfl⟩ := canonicalText_eq_ok_iff.mp ht
  exact ⟨c, hc, Canonical.readable_ofValueAt hc hsize, Canonical.distinctKeys_ofValueAt hv hc, rfl⟩

/-- The canonical text of a value is a document of strict JSON. Nothing stands between its tokens, and the
keys of every object ascend strictly by their code points. -/
theorem isDocument_canonicalText {v : Value} (hv : v.Wellformed) {t : Text} (ht : v.canonicalText = .ok t) :
    IsDocument .free t ∧ IsDocument .canonical t := by
  obtain ⟨c, _, hread, hkeys, rfl⟩ := exists_document hv ht
  have hcanonical := Json.isDocument_write hread hkeys
  exact ⟨hcanonical.free, hcanonical⟩

/-- A line feed comes before a bracket, though the backslash of its escape would not. -/
theorem isDocument_canonicalText_entries :
    (Value.dict [(.text "[", .tuple [.text "\"", .null]), (.text "\n", .dict [])]).canonicalText
        = .ok "\x7b\"\\n\":\x7b\x7d,\"[\":[\"\\\"\",null]\x7d" ∧
      IsDocument .free "\x7b\"\\n\":\x7b\x7d,\"[\":[\"\\\"\",null]\x7d" ∧
      IsDocument .canonical "\x7b\"\\n\":\x7b\x7d,\"[\":[\"\\\"\",null]\x7d" := by
  have htext : (Value.dict [(.text "[", .tuple [.text "\"", .null]), (.text "\n", .dict [])]).canonicalText
      = .ok "\x7b\"\\n\":\x7b\x7d,\"[\":[\"\\\"\",null]\x7d" := rfl
  exact ⟨htext, isDocument_canonicalText (by decide) htext⟩

/-- The canonical text of a value is read as a document, the one that the value has in canonical form. -/
theorem read_canonicalText {v : Value} (hv : v.Wellformed) {t : Text} (ht : v.canonicalText = .ok t) :
    ∃ c j, Canonical.ofValue .root v = .ok c ∧ Json.read t = .ok j ∧ j.Same c.toJson := by
  obtain ⟨c, hc, hread, hkeys, rfl⟩ := exists_document hv ht
  exact ⟨c, c.toJson.sorted, hc, Json.read_write hread.loads hkeys, Json.sorted_same _⟩

/-- Texts, a truth value, nothing and octets, in a dictionary whose keys stand in the wrong order. -/
theorem read_canonicalText_entries :
    ∃ c j, Canonical.ofValue .root (.dict [(.text "b", .list [.bool true, .null]),
        (.textMember ⟨"Key", "A"⟩ "a\n", .tuple [.text [0xD800], .bytes [1, 2]])]) = .ok c ∧
      Json.read (Text.ofString "\x7b\"a\\n\":[\"" ++
        0xD800 :: Text.ofString "\",\"AQI=\"],\"b\":[true,null]\x7d") = .ok j ∧
      j.Same c.toJson :=
  read_canonicalText (by decide) rfl

/-- The canonical text of a document as a value is the document as it is written. -/
theorem canonicalText_toValue_eq_ok_iff {j : Json} {t : Text} :
    j.toValue.canonicalText = .ok t ↔ Readable Canonical.maxDepth j ∧ t = j.write := by
  rw [canonicalText_eq_ok_iff]
  simp only [Canonical.ofValue, Canonical.ofValueAt_toValue]
  constructor
  · rintro ⟨c, hc, hsize, rfl⟩
    obtain rfl := Canonical.toJson_ofJson hc
    exact ⟨Canonical.readable_ofJson hc hsize, rfl⟩
  · rintro ⟨hread, rfl⟩
    obtain ⟨c, hc⟩ := Canonical.exists_ofJson hread .root
    obtain rfl := Canonical.toJson_ofJson hc
    exact ⟨c, hc, hread.hasOversized_eq_false, rfl⟩

/-- Values have one canonical text exactly if their documents are the same: writing sorts away the order
of members and nothing else, and a text is read in one way only. -/
theorem canonicalText_eq_iff {v w : Value} (hv : v.Wellformed) {t u : Text} (ht : v.canonicalText = .ok t)
    (hu : w.canonicalText = .ok u) {c d : Canonical} (hc : Canonical.ofValue .root v = .ok c)
    (hd : Canonical.ofValue .root w = .ok d) : t = u ↔ c.toJson.Same d.toJson := by
  obtain ⟨c', hc', hread, hkeys, rfl⟩ := exists_document hv ht
  obtain ⟨d', hd', hsize, rfl⟩ := canonicalText_eq_ok_iff.mp hu
  obtain rfl := Except.ok.inj (hc'.symm.trans hc)
  obtain rfl := Except.ok.inj (hd'.symm.trans hd)
  rw [Json.same_iff_sorted_eq hkeys]
  constructor
  · exact Json.sorted_eq_of_write_eq hread.loads (Canonical.readable_ofValueAt hd hsize).loads
  · intro hsorted
    rw [Json.write, hsorted, Json.write]

theorem canonicalEquals_of_texts {v w : Value} {t u : Text} (ht : v.canonicalText = .ok t)
    (hu : w.canonicalText = .ok u) : canonicalEquals v w = .ok true ↔ t = u := by
  rw [canonicalEquals, ht, hu]
  simp only [Except.ok.injEq, decide_eq_true_eq]

/-- Values without a canonical text are canonically equal to none. -/
theorem exists_text_of_canonicalEquals {v w : Value} (h : canonicalEquals v w = .ok true) :
    ∃ t, v.canonicalText = .ok t := by
  cases hv : v.canonicalText with
  | ok t => exact ⟨t, rfl⟩
  | error fault =>
    rw [canonicalEquals, hv] at h
    dsimp only at h
    split at h
    · cases h
    · cases h

end CanonStore.Value
