import CanonStore.Proofs.Json.Joining
import CanonStore.Proofs.Json.Reading
import CanonStore.Proofs.Text.Utf8

/-!
# Canonical texts read back

The canonical text of a document reads back to the sorted form of that document: from the text itself
(`read_write`), from its octets when their encoding has to be found out (`readBytes_write`), and from
its octets by the tighter rules for records (`readStrict_write`). The document has to be readable and
must not repeat a key; the octets exist only if no string holds a surrogate.
-/

namespace CanonStore.Json

/-! ## Sorted documents are as readable -/

theorem itemsReadable_iff (depth : Nat) (items : List Json) :
    ItemsReadable depth items ↔ ∀ j ∈ items, Readable depth j :=
  iff_forall_mem_of_cons trivial (fun _ _ => Iff.rfl) items

theorem membersReadable_iff (depth : Nat) (members : List (Text × Json)) :
    MembersReadable depth members ↔ ∀ m ∈ members, Readable depth m.2 :=
  iff_forall_mem_of_cons trivial (fun _ _ => Iff.rfl) members

theorem readable_list_iff (depth : Nat) (items : List Json) :
    Readable depth (.list items) ↔ 0 < depth ∧ ∀ j ∈ items, Readable (depth - 1) j := by
  rw [← itemsReadable_iff]
  rfl

theorem readable_object_iff (depth : Nat) (members : List (Text × Json)) :
    Readable depth (.object members) ↔ 0 < depth ∧ ∀ m ∈ members, Readable (depth - 1) m.2 := by
  rw [← membersReadable_iff]
  rfl

theorem mem_sortMembers_map {members : List (Text × Json)} {n : Text × Json}
    (h : n ∈ sortMembers (members.map (Prod.map id sorted))) :
    ∃ m ∈ members, n = (m.1, sorted m.2) := by
  obtain ⟨m, hm, rfl⟩ := List.mem_map.mp ((sortMembers_perm _).subset h)
  exact ⟨m, hm, rfl⟩

/-- Sorting leaves a document readable. -/
theorem readable_sorted {depth : Nat} {j : Json} (h : Readable depth j) : Readable depth (sorted j) := by
  induction j generalizing depth with
  | null | bool | int | float | text => exact h
  | list items ih =>
    rw [readable_list_iff] at h
    rw [sorted_list, readable_list_iff]
    refine ⟨h.1, ?_⟩
    intro j hj
    obtain ⟨i, hi, rfl⟩ := List.mem_map.mp hj
    exact ih i hi (h.2 i hi)
  | object members ih =>
    rw [readable_object_iff] at h
    rw [sorted_object, readable_object_iff]
    refine ⟨h.1, ?_⟩
    intro n hn
    obtain ⟨m, hm, rfl⟩ := mem_sortMembers_map hn
    exact ih m hm (h.2 m hm)

/-- The same document is as readable. -/
theorem Same.readable {j k : Json} (h : Same j k) {depth : Nat} (hj : Readable depth j) :
    Readable depth k := by
  induction j generalizing k depth with
  | null | bool | int | float | text =>
    cases k <;> cases h
    exact hj
  | list items ih =>
    obtain ⟨others, rfl⟩ := exists_list_of_same h
    rw [readable_list_iff] at hj ⊢
    refine ⟨hj.1, ?_⟩
    intro k hk
    obtain ⟨j, hmem, hjk⟩ := exists_of_mem_right ((same_list_iff items others).mp h) hk
    exact ih j hmem hjk (hj.2 j hmem)
  | object members ih =>
    obtain ⟨others, rfl⟩ := exists_object_of_same h
    obtain ⟨ordered, hpairs, hperm⟩ := (same_object_iff members others).mp h
    rw [readable_object_iff] at hj ⊢
    refine ⟨hj.1, ?_⟩
    intro n hn
    -- A member of the other object is paired with one that can be read, wherever that stands.
    obtain ⟨m, hmem, hmn⟩ := exists_of_mem_right hpairs (hperm.symm.subset hn)
    exact ih m hmem hmn.2 (hj.2 m hmem)

/-- Sorting nests nothing deeper. -/
theorem nesting_sorted_le {j : Json} {n : Nat} (h : nesting j ≤ n) : nesting (sorted j) ≤ n := by
  induction j generalizing n with
  | null | bool | int | float | text => exact h
  | list items ih =>
    rw [nesting_list_le_iff] at h
    rw [sorted_list, nesting_list_le_iff, List.map_eq_nil_iff]
    refine h.imp_right fun ⟨hn, hitems⟩ => ⟨hn, fun j hj => ?_⟩
    obtain ⟨i, hi, rfl⟩ := List.mem_map.mp hj
    exact ih i hi (hitems i hi)
  | object members ih =>
    rw [nesting_object_le_iff] at h
    rw [sorted_object, nesting_object_le_iff]
    refine h.imp ?_ fun ⟨hn, hvalues⟩ => ⟨hn, fun n hn => ?_⟩
    · rintro rfl
      rfl
    · obtain ⟨m, hm, rfl⟩ := mem_sortMembers_map hn
      exact ih m hm (hvalues m hm)

/-! ## Texts -/

/-- The canonical text of a document reads back to its sorted form. -/
theorem readUnmarked_write {j : Json} (h : Readable maxDepth j) (hj : DistinctKeys j) :
    readUnmarked (write j) = .ok (sorted j) := by
  rw [readUnmarked, write, readRaw_compact (readable_sorted h)]
  exact congrArg Except.ok (joined_of_distinctKeys (distinctKeys_sorted hj))

/-- No canonical text starts with a byte order mark. -/
theorem head?_write_ne {j : Json} {depth : Nat} (h : Readable depth j) :
    (write j).head? ≠ some 0xFEFF := by
  obtain ⟨c, t, hstart, hc⟩ := compact_start (sorted j) (readable_sorted h)
  rw [write, hstart, List.head?_cons]
  intro heq
  obtain rfl := Option.some.inj heq
  exact absurd hc.isAscii (by decide)

/-- A written document is read back with its keys in order. -/
theorem read_write {j : Json} (h : Readable maxDepth j) (hj : DistinctKeys j) :
    read (write j) = .ok (sorted j) := by
  rw [read, if_neg (head?_write_ne h), readUnmarked_write h hj]

/-! ## Octets -/

/-- The document is no number: its text shows where it ends. -/
def SelfDelimiting : Json → Prop
  | .int _ | .float _ => False
  | _ => True

theorem selfDelimiting_sorted {j : Json} (h : SelfDelimiting j) : SelfDelimiting (sorted j) := by
  cases j with
  | list items =>
    rw [sorted_list]
    trivial
  | object members =>
    rw [sorted_object]
    trivial
  | _ => exact h

/-- No code point of a literal is zero. -/
theorem escapeOne_start (c : CodePoint) : ∃ d t, escapeOne .fewest c = d :: t ∧ d ≠ 0 := by
  rcases escapeOne_cases c with ⟨e, _, _, he⟩ | ⟨_, he⟩ | ⟨_, _, hc, he⟩
  · exact ⟨0x5C, [e], he, by decide⟩
  · exact ⟨0x5C, _, he, by decide⟩
  · refine ⟨c, [], he, ?_⟩
    rintro rfl
    exact absurd (by decide) hc

/-- The text of a document that is no number starts with two code points that are not zero, the first of
which is ASCII. -/
theorem compact_selfDelimiting {depth : Nat} {j : Json} (hj : SelfDelimiting j) (h : Readable depth j) :
    ∃ c d t, compact j = c :: d :: t ∧ c.isAscii ∧ c ≠ 0 ∧ d ≠ 0 := by
  cases j with
  | null => exact ⟨0x6E, 0x75, _, rfl, by decide, by decide, by decide⟩
  | bool b =>
    cases b with
    | false => exact ⟨0x66, 0x61, _, rfl, by decide, by decide, by decide⟩
    | true => exact ⟨0x74, 0x72, _, rfl, by decide, by decide, by decide⟩
  | int | float => exact hj.elim
  | text t =>
    cases t with
    | nil => exact ⟨0x22, 0x22, [], rfl, by decide, by decide, by decide⟩
    | cons c t =>
      obtain ⟨d, u, hstart, hd⟩ := escapeOne_start c
      have hquote : compact (.text (c :: t))
          = 0x22 :: d :: (u ++ (t.flatMap (escapeOne .fewest) ++ [0x22])) := by
        show 0x22 :: ((c :: t).flatMap (escapeOne .fewest) ++ [0x22]) = _
        rw [List.flatMap_cons, hstart, List.append_assoc, List.cons_append]
      exact ⟨0x22, d, _, hquote, by decide, by decide, hd⟩
  | list items =>
    rw [compact_list]
    by_cases hne : items = []
    · rw [hne]
      exact ⟨0x5B, 0x5D, [], rfl, by decide, by decide, by decide⟩
    · obtain ⟨d, t, hstart, hd⟩ := h.2.start hne
      refine ⟨0x5B, d, t ++ [0x5D], by rw [hstart, List.cons_append], by decide, by decide, ?_⟩
      -- No value starts with a zero octet.
      rintro rfl
      exact absurd hd.shows (by decide)
  | object members =>
    rw [compact_object]
    by_cases hne : members = []
    · rw [hne]
      exact ⟨0x7B, 0x7D, [], rfl, by decide, by decide, by decide⟩
    · obtain ⟨t, hstart⟩ := compactMembers_start hne
      exact ⟨0x7B, 0x22, t ++ [0x7D], by rw [hstart, List.cons_append], by decide, by decide, by decide⟩

/-- The octets of a document that is no number are taken for UTF-8, however many of them are left. -/
theorem ofDocument_of_isPrefix {j : Json} {depth : Nat} (hc : SelfDelimiting j) (h : Readable depth j)
    {p : Bytes} (hp : p <+: Utf8.encodeAny (write j)) : Text.ofDocument p = Utf8.decode true p := by
  obtain ⟨c, d, t, hstart, hc, hc0, hd0⟩ :=
    compact_selfDelimiting (selfDelimiting_sorted hc) (readable_sorted h)
  rw [write, hstart] at hp
  rw [Text.ofDocument, Utf8.detect_of_isPrefix hc hc0 hd0 hp]
  rfl

/-- The octets of a document that is no number read back to its sorted form. -/
theorem readBytes_write {j : Json} {bytes : Bytes} (hc : SelfDelimiting j) (h : Readable maxDepth j)
    (hj : DistinctKeys j) (hbytes : Utf8.encode (write j) = .ok bytes) :
    readBytes bytes = .ok (sorted j) := by
  have hall : bytes <+: Utf8.encodeAny (write j) :=
    ((Utf8.encode_eq_ok_iff _ _).mp hbytes).2 ▸ List.prefix_rfl
  rw [readBytes, ofDocument_of_isPrefix hc h hall, Utf8.decode_of_encode hbytes true]
  dsimp only
  rw [readUnmarked_write h hj]
  rfl

/-! ## Surrogates show -/

theorem hasSurrogate_text_eq_false (t : Text) :
    hasSurrogate (.text t) = false ↔ t.any CodePoint.isSurrogate = false := Iff.rfl

/-- A surrogate is written as it is. -/
theorem escapeOne_of_isSurrogate {c : CodePoint} (h : c.isSurrogate) : escapeOne .fewest c = [c] := by
  have hge : 0xD800 ≤ c.val := ((Utf8.isSurrogate_iff c).mp h).1
  have hne : ∀ a : CodePoint, a.val < 0xD800 → ¬ c = a := by
    rintro a ha rfl
    omega
  rw [escapeOne, if_neg (hne (CodePoint.ofChar '"') (by decide)),
    if_neg (hne (CodePoint.ofChar '\\') (by decide)), if_neg (hne (CodePoint.ofChar '\n') (by decide)),
    if_neg (hne (CodePoint.ofChar '\r') (by decide)), if_neg (hne (CodePoint.ofChar '\t') (by decide)),
    if_neg (hne 0x08 (by decide)), if_neg (hne 0x0C (by decide)), if_neg (by omega)]

/-- A surrogate of a string stands in its literal. -/
theorem mem_quote {c : CodePoint} (h : c.isSurrogate) {t : Text} (hc : c ∈ t) : c ∈ quote .fewest t := by
  have hmem : c ∈ t.flatMap (escapeOne .fewest) :=
    List.mem_flatMap.mpr ⟨c, hc, by rw [escapeOne_of_isSurrogate h]; exact List.mem_singleton_self c⟩
  exact List.mem_append_left _ (List.mem_cons_of_mem _ hmem)

theorem mem_compactItems {items : List Json} {j : Json} (hj : j ∈ items) {c : CodePoint}
    (hc : c ∈ compact j) : c ∈ compactItems items := by
  induction items with
  | nil => cases hj
  | cons i rest ih =>
    by_cases hne : rest = []
    · rw [hne, List.mem_singleton] at hj
      rw [hne, compactItems, ← hj]
      exact hc
    · rw [compactItems_cons i hne, List.mem_append, List.mem_cons]
      rcases List.mem_cons.mp hj with rfl | hj
      · exact .inl hc
      · exact .inr (.inr (ih hj))

theorem mem_compactMembers {members : List (Text × Json)} {m : Text × Json} (hm : m ∈ members)
    {c : CodePoint} (hc : c ∈ quote .fewest m.1 ∨ c ∈ compact m.2) : c ∈ compactMembers members := by
  induction members with
  | nil => cases hm
  | cons n rest ih =>
    by_cases hne : rest = []
    · rw [hne, List.mem_singleton] at hm
      rw [hne, compactMembers_singleton, ← hm, List.mem_append, List.mem_cons]
      exact hc.imp_right .inr
    · rw [compactMembers_cons n.1 n.2 hne, List.mem_append, List.mem_cons, List.mem_append,
        List.mem_cons]
      rcases List.mem_cons.mp hm with rfl | hm
      · exact hc.imp_right fun hc => .inr (.inl hc)
      · exact .inr (.inr (.inr (.inr (ih hm))))

/-- Every string of a document without surrogates in its text is without surrogates. -/
theorem hasSurrogate_eq_false {j : Json} (h : ∀ c ∈ compact j, c.isSurrogate = false) :
    hasSurrogate j = false := by
  have hquote : ∀ t : Text, (∀ c ∈ quote .fewest t, c.isSurrogate = false) →
      t.any CodePoint.isSurrogate = false := by
    intro t ht
    rw [List.any_eq_false]
    intro c hc hs
    rw [ht c (mem_quote hs hc)] at hs
    exact Bool.false_ne_true hs
  -- Escapes are ASCII, so a surrogate in a part shows in the text of the whole.
  induction j with
  | null | bool | int | float => rfl
  | text t => exact hquote t h
  | list items ih =>
    rw [compact_list] at h
    rw [hasSurrogate_list_eq_false]
    intro j hj
    exact ih j hj fun c hc => h c (List.mem_cons_of_mem _
      (List.mem_append_left _ (mem_compactItems hj hc)))
  | object members ih =>
    rw [compact_object] at h
    have hinside : ∀ c ∈ compactMembers members, c.isSurrogate = false := fun c hc =>
      h c (List.mem_cons_of_mem _ (List.mem_append_left _ hc))
    rw [hasSurrogate_object_eq_false]
    intro m hm
    exact ⟨hquote m.1 fun c hc => hinside c (mem_compactMembers hm (.inl hc)),
      ih m hm fun c hc => hinside c (mem_compactMembers hm (.inr hc))⟩

/-- A text is written for one sorted document only. -/
theorem sorted_eq_of_write_eq {j k : Json} (hj : Readable maxDepth j) (hk : Readable maxDepth k)
    (h : write j = write k) : sorted j = sorted k := by
  have hread := readRaw_compact (readable_sorted hj)
  have htext : compact (sorted j) = compact (sorted k) := h
  rw [htext, readRaw_compact (readable_sorted hk)] at hread
  exact (Except.ok.inj hread).symm

/-- Documents that are written alike are the same. -/
theorem same_of_write_eq {j k : Json} (hj : Readable maxDepth j) (hk : Readable maxDepth k)
    (h : write j = write k) : Same j k :=
  same_of_sorted_eq (sorted_eq_of_write_eq hj hk h)

/-- A document that has octets holds no surrogate. -/
theorem hasSurrogate_sorted_eq_false {j : Json} {bytes : Bytes}
    (hbytes : Utf8.encode (write j) = .ok bytes) : hasSurrogate (sorted j) = false :=
  hasSurrogate_eq_false ((Utf8.encode_eq_ok_iff _ _).mp hbytes).1

/-- The octets of a document that keeps to the nesting limit read back by the tighter rules. -/
theorem readStrict_write {j : Json} {bytes : Bytes} (h : Readable maxDepth j) (hj : DistinctKeys j)
    (hn : nesting j ≤ maxNesting) (hbytes : Utf8.encode (write j) = .ok bytes) :
    readStrict? bytes = some (sorted j) := by
  have hraw := readRaw_compact (readable_sorted h)
  have hsurrogate := hasSurrogate_sorted_eq_false hbytes
  have hnesting : ¬ maxNesting < nesting (sorted j) := Nat.not_lt.mpr (nesting_sorted_le hn)
  have hjoined := joined_of_distinctKeys (distinctKeys_sorted hj)
  rw [write] at hbytes
  rw [readStrict?, Utf8.decode_of_encode hbytes false]
  dsimp only
  rw [hraw]
  dsimp only
  rw [hsurrogate, hjoined, decide_eq_false hnesting]
  rfl

end CanonStore.Json
