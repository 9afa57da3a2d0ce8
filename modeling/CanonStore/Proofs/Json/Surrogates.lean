import CanonStore.Proofs.Json.Grammar

/-!
# Surrogates in documents

The written form of a document holds a surrogate exactly if one of its strings does, so it has octets
exactly if none of them does (`exists_encode_write_iff`).
-/

namespace CanonStore.Json

theorem isSurrogate_of_isAscii {c : CodePoint} (h : c.isAscii) : c.isSurrogate = false := by
  rw [CodePoint.isAscii, decide_eq_true_eq] at h
  rw [Bool.eq_false_iff, ne_eq, Utf8.isSurrogate_iff]
  omega

theorem isAscii_of_isDigit {c : CodePoint} (h : c.isDigit) : c.isAscii := (startsValue_of_isDigit h).isAscii

theorem isAscii_ofHexValue : ∀ d < 16, (CodePoint.ofHexValue d).isAscii := by decide

theorem isAscii_of_mem_letterEscapes {e c : CodePoint} (h : (e, c) ∈ letterEscapes) : e.isAscii := by
  have hall : (letterEscapes.all fun p => p.1.isAscii) = true := rfl
  exact List.all_eq_true.mp hall (e, c) h

/-- What a code point is written as is in ASCII, or it is the code point itself. -/
theorem mem_escapeOne {c d : CodePoint} (h : d ∈ escapeOne .fewest c) : d.isAscii ∨ d = c := by
  rcases escapeOne_cases c with ⟨e, _, hv, he⟩ | ⟨hc, he⟩ | ⟨_, _, _, he⟩
  · rw [he] at h
    simp only [List.mem_cons, List.not_mem_nil, or_false] at h
    rcases h with rfl | rfl
    · exact .inl (by decide)
    · exact .inl (isAscii_of_mem_letterEscapes (mem_letterEscapes hv))
  · have hhex : ∀ k < 16, (CodePoint.ofHexValue k).isAscii := isAscii_ofHexValue
    have hunit : unitEscape c.val = 0x5C :: 0x75 :: Numeral.hexPadded 4 c.val := rfl
    rw [he, hunit, Numeral.hexPadded_four (by omega)] at h
    simp only [List.mem_cons, List.not_mem_nil, or_false] at h
    rcases h with rfl | rfl | rfl | rfl | rfl | rfl
    · exact .inl (by decide)
    · exact .inl (by decide)
    all_goals exact .inl (hhex _ (by omega))
  · rw [he] at h
    exact .inr (List.mem_singleton.mp h)

/-- The literal of a text without surrogates is without surrogates. -/
theorem isSurrogate_of_mem_quote {t : Text} (ht : t.any CodePoint.isSurrogate = false) :
    ∀ c ∈ quote .fewest t, c.isSurrogate = false := by
  have hquote : (0x22 : CodePoint).isSurrogate = false := by decide
  rw [List.any_eq_false] at ht
  refine List.forall_mem_append.mpr ⟨List.forall_mem_cons.mpr ⟨hquote, ?_⟩, List.forall_mem_singleton.mpr hquote⟩
  intro c hc
  obtain ⟨d, hd, hcd⟩ := List.mem_flatMap.mp hc
  rcases mem_escapeOne hcd with hascii | rfl
  · exact isSurrogate_of_isAscii hascii
  · exact Bool.eq_false_iff.mpr (ht c hd)

theorem isSurrogate_of_mem_plainWords {w : Text} (h : w ∈ plainWords) : ∀ c ∈ w, c.isSurrogate = false := by
  have hall : (plainWords.all fun w => w.all fun c => !c.isSurrogate) = true := rfl
  intro c hc
  simpa using List.all_eq_true.mp (List.all_eq_true.mp hall w h) c hc

theorem isSurrogate_of_isNumber {s : Text} (h : IsNumber s) : ∀ c ∈ s, c.isSurrogate = false := by
  refine h.forall_mem (fun c hc => isSurrogate_of_isAscii (isAscii_of_isDigit hc)) ?_
  simp only [numberMarks, List.forall_mem_cons]
  exact ⟨by decide, by decide, by decide, by decide, by decide, List.forall_mem_nil _⟩

/-- The text of a document without surrogates is without surrogates. -/
theorem isSurrogate_of_mem_compact {j : Json} {depth : Nat} (hread : Readable depth j)
    (h : hasSurrogate j = false) : ∀ c ∈ compact j, c.isSurrogate = false := by
  -- What stands between the parts is ASCII, so only the parts matter.
  have hcomma : ∀ c ∈ Text.ofString ",", c.isSurrogate = false := List.forall_mem_singleton.mpr (by decide)
  induction j generalizing depth with
  | null => exact isSurrogate_of_mem_plainWords (by decide)
  | bool b => exact isSurrogate_of_mem_plainWords (by cases b <;> decide)
  | int n => exact isSurrogate_of_isNumber (isNumber_ofInt n)
  | float x => exact isSurrogate_of_isNumber (isNumber_jsonText hread)
  | text t => exact isSurrogate_of_mem_quote h
  | list items ih =>
    rw [readable_list_iff] at hread
    rw [hasSurrogate_list_eq_false] at h
    rw [compact_list, compactItems_eq_joinWith]
    have hitems : ∀ s ∈ items.map compact, ∀ c ∈ s, c.isSurrogate = false := by
      rw [List.forall_mem_map]
      exact fun j hj => ih j hj (hread.2 j hj) (h j hj)
    exact List.forall_mem_cons.mpr ⟨by decide, List.forall_mem_append.mpr
      ⟨Text.forall_mem_joinWith hcomma hitems, List.forall_mem_singleton.mpr (by decide)⟩⟩
  | object members ih =>
    rw [readable_object_iff] at hread
    rw [hasSurrogate_object_eq_false] at h
    rw [compact_object, compactMembers_eq_joinWith]
    have hmembers : ∀ s ∈ (members.map spelling).map Spelling.text, ∀ c ∈ s, c.isSurrogate = false := by
      rw [List.map_map, List.forall_mem_map]
      intro m hm
      exact List.forall_mem_append.mpr ⟨isSurrogate_of_mem_quote (h m hm).1,
        List.forall_mem_cons.mpr ⟨by decide, ih m hm (hread.2 m hm) (h m hm).2⟩⟩
    exact List.forall_mem_cons.mpr ⟨by decide, List.forall_mem_append.mpr
      ⟨Text.forall_mem_joinWith hcomma hmembers, List.forall_mem_singleton.mpr (by decide)⟩⟩

/-- The same document holds the same strings. -/
theorem Same.hasSurrogate_eq_false {j k : Json} (h : Same j k) (hj : hasSurrogate j = false) :
    hasSurrogate k = false := by
  induction j generalizing k with
  | null | bool | int | float | text =>
    cases k <;> cases h
    exact hj
  | list items ih =>
    obtain ⟨others, rfl⟩ := exists_list_of_same h
    rw [hasSurrogate_list_eq_false] at hj ⊢
    intro k hk
    obtain ⟨j, hmem, hjk⟩ := exists_of_mem_right ((same_list_iff items others).mp h) hk
    exact ih j hmem hjk (hj j hmem)
  | object members ih =>
    obtain ⟨others, rfl⟩ := exists_object_of_same h
    obtain ⟨ordered, hpairs, hperm⟩ := (same_object_iff members others).mp h
    rw [hasSurrogate_object_eq_false] at hj ⊢
    intro n hn
    obtain ⟨m, hmem, hmn⟩ := exists_of_mem_right hpairs (hperm.symm.subset hn)
    obtain ⟨hkey, hvalue⟩ := hj m hmem
    exact ⟨hmn.1 ▸ hkey, ih m hmem hmn.2 hvalue⟩

/-- A document has octets exactly if no string of it holds a surrogate. -/
theorem exists_encode_write_iff {j : Json} {depth : Nat} (h : Readable depth j) :
    (∃ bytes, Utf8.encode (write j) = .ok bytes) ↔ hasSurrogate j = false := by
  constructor
  · rintro ⟨bytes, hbytes⟩
    exact (sorted_same j).hasSurrogate_eq_false (hasSurrogate_sorted_eq_false hbytes)
  · intro hj
    refine ⟨Utf8.encodeAny (write j), (Utf8.encode_eq_ok_iff _ _).mpr ⟨?_, rfl⟩⟩
    exact isSurrogate_of_mem_compact (readable_sorted h) ((same_sorted j).hasSurrogate_eq_false hj)

end CanonStore.Json
