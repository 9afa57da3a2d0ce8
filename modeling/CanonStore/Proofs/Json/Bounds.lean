import CanonStore.Proofs.Json.Joining
import CanonStore.Proofs.Json.Truncated
import CanonStore.Proofs.Value.Storable

/-!
# What a reader can return

Any text at all is read as a document within bounds, or not read: no integer in it is too long, no more
containers lie inside one another than brackets may be open, and once repeated keys are joined every key
of an object stands once. Reading stops at the bound on open brackets only in a text in which more
brackets open. One invariant carries all of it through every step of the reader (`Bounded`); it is kept
by steps in sequence (`bounded_bind`), so each step of the reader has one lemma. Main statements:
`admitted_of_readBytes` and `openings_of_readBytes`.
-/

namespace CanonStore.Json

/-! ## Bounds of a document -/

/-- No integer of the document is too long, and at most `depth` containers lie inside one another. -/
def Admitted (depth : Nat) (j : Json) : Prop := hasOversized j = false ∧ j.toValue.nesting ≤ depth

variable {depth : Nat}

theorem admitted_list_iff (items : List Json) :
    Admitted depth (.list items) ↔ 0 < depth ∧ ∀ j ∈ items, Admitted (depth - 1) j := by
  simp only [Admitted, hasOversized_list_eq_false, toValue_list, Value.nesting_list_le_iff,
    List.forall_mem_map, forall_and]
  exact and_left_comm

theorem admitted_object_iff (members : List (Text × Json)) :
    Admitted depth (.object members) ↔ 0 < depth ∧ ∀ m ∈ members, Admitted (depth - 1) m.2 := by
  have hkey : ∀ m ∈ members, (Value.text m.1).nesting ≤ depth - 1 := fun _ _ => Nat.zero_le _
  simp only [Admitted, hasOversized_object_eq_false, toValue_object, Value.nesting_dict_le_iff,
    List.forall_mem_map, Prod.map_fst, Prod.map_snd, forall₂_and]
  rw [and_iff_right hkey]
  exact and_left_comm

/-- Joining repeated keys takes members away only, so the bounds are kept. -/
theorem admitted_joined {j : Json} (h : Admitted depth j) : Admitted depth j.joined := by
  induction j generalizing depth with
  | null | bool | int | float | text => exact h
  | list items ih =>
    rw [admitted_list_iff] at h
    rw [joined, joinedItems_eq_map, admitted_list_iff, List.forall_mem_map]
    exact ⟨h.1, fun j hj => ih j hj (h.2 j hj)⟩
  | object members ih =>
    rw [admitted_object_iff] at h
    rw [joined, joinedValues_eq_map, admitted_object_iff]
    refine ⟨h.1, ?_⟩
    intro m hm
    obtain ⟨n, hn, rfl⟩ := List.mem_map.mp (mem_of_mem_joinMembers hm)
    exact ih n hn (h.2 n hn)

/-- After joining, no object repeats a key. -/
theorem distinctKeys_joined (j : Json) : DistinctKeys j.joined := by
  induction j with
  | null | bool | int | float | text => trivial
  | list items ih =>
    rw [joined, joinedItems_eq_map, distinctKeys_list_iff, List.forall_mem_map]
    exact ih
  | object members ih =>
    rw [joined, joinedValues_eq_map, distinctKeys_object_iff]
    refine ⟨nodup_keys_joinMembers _, ?_⟩
    intro m hm
    obtain ⟨n, hn, rfl⟩ := List.mem_map.mp (mem_of_mem_joinMembers hm)
    exact ih n hn

/-! ## The invariant -/

/-- How many brackets open in a text. -/
def openings (s : Text) : Nat := s.countP fun c : CodePoint => c = '[' || c = '{'

/-- Whatever is left to be read has no more brackets than all of it. -/
theorem openings_le_of_suffix {s t : Text} (h : s <:+ t) : openings s ≤ openings t :=
  h.sublist.countP_le

/-- What is read has the property, and an end of the text is left. If reading stops at the bound on open
brackets, more than `depth` of them open in the text. -/
structure Bounded {α : Type} (depth : Nat) (s : Text) (P : α → Prop) (x : Except Stop (α × Text)) :
    Prop where
  taken : ∀ a rest, x = .ok (a, rest) → P a ∧ rest <:+ s
  tooDeep : x = .error .tooDeep → depth < openings s

section Bounded

variable {α β : Type} {s t : Text} {P : α → Prop} {Q : β → Prop} {x : Except Stop (α × Text)}

/-- A step that succeeds keeps the bounds if its result is admitted. -/
theorem bounded_ok {a : α} {rest : Text} (ha : P a) (h : rest <:+ s) :
    Bounded depth s P (.ok (a, rest)) where
  taken := by
    intro b rest' heq
    cases heq
    exact ⟨ha, h⟩
  tooDeep := fun h => nomatch h

/-- Any other stop says nothing about brackets. -/
theorem bounded_stop {stop : Stop} (h : stop ≠ .tooDeep) : Bounded depth s P (.error stop) where
  taken := fun _ _ h => nomatch h
  tooDeep := fun heq => absurd (Except.error.inj heq) h

/-- A step that meets a problem keeps the bounds: it has not run out of depth. -/
theorem bounded_problem (p : Problem) (left : Nat) : Bounded depth s P (.error (.problem p left)) :=
  bounded_stop (fun h => nomatch h)

/-- Bounds that hold for what is left hold for the whole. -/
theorem Bounded.of_suffix (h : Bounded depth s P x) (hs : s <:+ t) : Bounded depth t P x where
  taken := fun a rest hx => ⟨(h.taken a rest hx).1, (h.taken a rest hx).2.trans hs⟩
  tooDeep := fun hx => Nat.lt_of_lt_of_le (h.tooDeep hx) (openings_le_of_suffix hs)

/-- One step after the other. The second one starts at the end that the first one leaves. -/
theorem bounded_bind {f : α × Text → Except Stop (β × Text)} (hx : Bounded depth s P x)
    (hf : ∀ a rest, x = .ok (a, rest) → P a → rest <:+ s → Bounded depth s Q (f (a, rest))) :
    Bounded depth s Q (x >>= f) where
  taken := by
    intro b rest h
    obtain ⟨⟨a, rest'⟩, ha, h⟩ := bind_eq_ok_iff.mp h
    obtain ⟨hP, hsuffix⟩ := hx.taken a rest' ha
    exact (hf a rest' ha hP hsuffix).taken b rest h
  tooDeep := by
    intro h
    rcases bind_eq_error_iff.mp h with h | ⟨⟨a, rest'⟩, ha, h⟩
    · exact hx.tooDeep h
    · obtain ⟨hP, hsuffix⟩ := hx.taken a rest' ha
      exact (hf a rest' ha hP hsuffix).tooDeep h

/-- Behind a bracket, one bracket less may be opened. -/
theorem Bounded.opened (h : Bounded (depth - 1) t P x) (hs : t <:+ s) {c : CodePoint}
    (hc : c = '[' || c = '{') : Bounded depth (c :: s) P x where
  taken := fun a rest hx =>
    ⟨(h.taken a rest hx).1, (h.taken a rest hx).2.trans (hs.trans (List.suffix_cons c s))⟩
  tooDeep := by
    intro hx
    have hlt := h.tooDeep hx
    have hle := openings_le_of_suffix hs
    have hcons : openings (c :: s) = openings s + 1 := List.countP_cons_of_pos hc
    omega

end Bounded

/-! ## Strings -/

section Strings

variable (opened : Text)

theorem unitEscapeAt_bounded (s : Text) :
    Bounded depth s (fun _ => True) (outcome (unitEscapeAt s)) := by
  unfold unitEscapeAt
  split
  · exact bounded_problem ..
  split
  · exact bounded_problem ..
  dsimp only
  split
  · exact bounded_ok trivial (List.drop_suffix 4 s)
  split
  · exact bounded_ok trivial (List.drop_suffix 4 s)
  split
  · exact bounded_problem ..
  split
  · exact bounded_ok trivial (List.drop_suffix 10 s)
  · exact bounded_ok trivial (List.drop_suffix 4 s)

theorem stringItem_bounded (s : Text) :
    Bounded depth s (fun _ => True) (outcome (stringItem opened s)) := by
  -- Escapes by number read on by themselves, so they are split off before the definition is unfolded.
  by_cases hunit : ∃ after, s = 0x5C :: 0x75 :: after
  · obtain ⟨after, rfl⟩ := hunit
    have hafter : after <:+ 0x5C :: 0x75 :: after := (List.suffix_cons _ _).trans (List.suffix_cons _ _)
    rw [outcome_stringItem_unit]
    exact bounded_bind ((unitEscapeAt_bounded after).of_suffix hafter) fun _ _ _ _ h => bounded_ok trivial h
  cases s with
  | nil => exact bounded_problem ..
  | cons c rest =>
    have hrest : rest <:+ c :: rest := List.suffix_cons c rest
    rw [stringItem.eq_def]
    dsimp only
    split
    · exact bounded_ok trivial hrest
    split
    · exact bounded_problem ..
    split
    · exact bounded_ok trivial hrest
    next hc =>
      split
      · exact bounded_problem ..
      · next e after =>
        split
        · next he => exact absurd ⟨after, by rw [of_not_not hc, he]; rfl⟩ hunit
        split
        · exact bounded_problem ..
        · exact bounded_ok trivial ((List.suffix_cons e after).trans hrest)

theorem outcome_stringBody (s : Text) : outcome (stringBody opened s) = (do
    let (item, r) ← outcome (stringItem opened s)
    match item with
    | none => .ok ([], r)
    | some c => do
      let (t, r') ← outcome (stringBody opened r)
      .ok (c :: t, r')) := by
  rw [stringBody]
  cases stringItem opened s with
  | error stop => rfl
  | ok p =>
    obtain ⟨_ | c, r⟩ := p
    · rfl
    · simp only [outcome_ok, bind, Except.bind]
      cases stringBody opened r.val <;> rfl

/-- A text needs no depth at all. -/
theorem stringBody_bounded (s : Text) :
    Bounded depth s (fun _ => True) (outcome (stringBody opened s)) := by
  induction hn : s.length using Nat.strong_induction_on generalizing s with
  | h n ih =>
    rw [outcome_stringBody]
    apply bounded_bind (stringItem_bounded opened s)
    intro item r hitem _ hr
    cases item with
    | none => exact bounded_ok trivial hr
    | some c =>
      obtain ⟨hlt, _⟩ := gives_iff.mpr hitem
      have hbody := (ih r.length (hn ▸ hlt) r rfl).of_suffix hr
      exact bounded_bind hbody fun _ _ _ _ h => bounded_ok trivial h

end Strings

/-! ## Words and numbers -/

/-- Words are admitted at any depth. -/
theorem admitted_word : ∀ w ∈ words, Admitted depth w.2 := by
  intro w hw
  have hall : (words.all fun w => !w.2.hasOversized && w.2.toValue.nesting = 0) = true := rfl
  have hleaf := List.all_eq_true.mp hall w hw
  simp only [Bool.and_eq_true, Bool.not_eq_true', decide_eq_true_eq] at hleaf
  exact ⟨hleaf.1, hleaf.2 ▸ Nat.zero_le depth⟩

theorem mem_words_of_takeWord {s : Text} {w : Json × Text} (h : takeWord? s = some w) :
    ∃ word ∈ words, word.2 = w.1 := by
  obtain ⟨word, hword, found⟩ := List.exists_of_findSome?_eq_some h
  obtain ⟨rest, _, rfl⟩ := Option.map_eq_some_iff.mp found
  exact ⟨word, hword, rfl⟩

/-- An integer of too many digits is not read. -/
theorem admitted_numeric {n : Numeric} (hdigits : ∀ c ∈ n.whole, c.isDigit) {negative : Bool} {j : Json}
    (h : n.value negative = .ok j) : Admitted depth j := by
  unfold Numeric.value at h
  split at h
  · split at h
    · cases h
    · next hlen =>
      cases h
      refine ⟨(isOversized_eq_false_iff _).mpr ?_, Nat.zero_le depth⟩
      have hlt : Numeral.toNat n.whole < 10 ^ maxDigits :=
        (Numeral.toNat_lt hdigits).trans_le (Nat.pow_le_pow_right (by decide) (Nat.le_of_not_lt hlen))
      rw [Numeral.length_le_iff (by decide)]
      split
      · rwa [Int.natAbs_neg, Int.natAbs_natCast]
      · rwa [Int.natAbs_natCast]
  · cases h
    exact ⟨rfl, Nat.zero_le depth⟩

/-- Scalars are admitted at any depth. -/
theorem admitted_scalar {s : Text} {j : Json} {r : Shorter s} (h : scalar s = .ok (j, r)) :
    Admitted depth j := by
  unfold scalar at h
  split at h
  · next w hw =>
    cases h
    obtain ⟨word, hword, heq⟩ := mem_words_of_takeWord hw
    exact heq ▸ admitted_word word hword
  dsimp only at h
  split at h
  · cases h
  next hwhole =>
    split at h
    · cases h
    · next hvalue =>
      cases h
      exact admitted_numeric (takeWhole_spec hwhole).1.1.2 hvalue

theorem scalar_bounded (s : Text) : Bounded depth s (Admitted depth) (outcome (scalar s)) := by
  rcases scalar_cases s with ⟨stop, hstop, hne⟩ | ⟨j, rest, hgives, hsuffix⟩
  · rw [hstop]
    exact bounded_stop hne
  · obtain ⟨hlt, hscalar⟩ := hgives
    rw [hscalar]
    exact bounded_ok (admitted_scalar hscalar) hsuffix

/-! ## Values -/

theorem skipBlanks_suffix (s : Text) : skipBlanks s <:+ s := List.dropWhile_suffix isBlank

/-- An opening bracket, and what is inside: nothing but the closing bracket, or parts. -/
theorem bracket_bounded {α : Type} {P : α → Prop} {c close : CodePoint} {p : Problem} {s : Text}
    {f : Text → Except Stop (α × Text)} {empty : Json} {whole : α → Json}
    (hc : c = '[' || c = '{') (hempty : 0 < depth → Admitted depth empty)
    (hf : ∀ t : Text, t.length ≤ s.length → Bounded (depth - 1) t P (f t))
    (hwhole : 0 < depth → ∀ a, P a → Admitted depth (whole a)) :
    Bounded depth (c :: s) (Admitted depth) (
      if depth = 0 then .error .tooDeep
      else match skipBlanks s with
        | [] => .error (.problem p 0)
        | d :: after =>
          if d = close then .ok (empty, after)
          else do
            let (a, r) ← f (d :: after)
            .ok (whole a, r)) := by
  have hblanks := skipBlanks_suffix s
  split
  · next hd =>
    -- The bracket itself is one more than may be open.
    have hone : openings (c :: s) = openings s + 1 := List.countP_cons_of_pos hc
    exact ⟨(fun _ _ h => nomatch h), fun _ => by omega⟩
  next hd =>
    have hpos := Nat.pos_of_ne_zero hd
    split
    · exact bounded_problem ..
    next d after hskip =>
      rw [hskip] at hblanks
      split
      · have hafter : after <:+ c :: s :=
          (List.suffix_cons d after).trans (hblanks.trans (List.suffix_cons c s))
        exact bounded_ok (hempty hpos) hafter
      · have hinside := (hf (d :: after) hblanks.length_le).opened hblanks hc
        exact bounded_bind hinside fun a _ _ ha h => bounded_ok (hwhole hpos a ha) h

/-- Values, items and members are read within bounds in all texts of fewer than `n` code points. -/
def BoundedBelow (n : Nat) : Prop :=
  ∀ t : Text, t.length < n → ∀ depth,
    Bounded depth t (Admitted depth) (outcome (value depth t)) ∧
    Bounded depth t (fun js => ∀ j ∈ js, Admitted depth j) (outcome (items depth t)) ∧
    Bounded depth t (fun ms => ∀ m ∈ ms, Admitted depth m.2) (outcome (members depth t))

theorem value_text_bounded (depth : Nat) (s : Text) :
    Bounded depth (0x22 :: s) (Admitted depth) (outcome (value depth (0x22 :: s))) := by
  have hquote : (0x22 : CodePoint) = CodePoint.ofChar '"' := rfl
  have hbody : Bounded depth (0x22 :: s) (fun _ => True) (outcome (stringBody (0x22 :: s) s)) :=
    (stringBody_bounded (0x22 :: s) s).of_suffix (List.suffix_cons 0x22 s)
  have houtcome : outcome (value depth (0x22 :: s)) = (do
      let (t, r) ← outcome (stringBody (0x22 :: s) s)
      .ok (.text t, r)) := by
    rw [value, if_pos hquote]
    cases stringBody (0x22 :: s) s <;> rfl
  rw [houtcome]
  exact bounded_bind hbody fun t _ _ _ h => bounded_ok ⟨rfl, Nat.zero_le depth⟩ h

/-- A list takes one bracket and one from the depth, and leaves the rest to its items. -/
theorem value_list_bounded {s : Text} (ih : BoundedBelow (s.length + 1)) (depth : Nat) :
    Bounded depth (0x5B :: s) (Admitted depth) (outcome (value depth (0x5B :: s))) := by
  rw [outcome_value_list]
  have hinside : ∀ t : Text, t.length ≤ s.length →
      Bounded (depth - 1) t (fun js => ∀ j ∈ js, Admitted (depth - 1) j) (outcome (items (depth - 1) t)) := by
    intro t ht
    exact (ih t (Nat.lt_succ_of_le ht) (depth - 1)).2.1
  refine bracket_bounded rfl ?_ hinside ?_
  · intro hd
    exact (admitted_list_iff []).mpr ⟨hd, List.forall_mem_nil _⟩
  · intro hd js hjs
    exact (admitted_list_iff js).mpr ⟨hd, hjs⟩

/-- An object takes one brace and one from the depth, and leaves the rest to its members. -/
theorem value_object_bounded {s : Text} (ih : BoundedBelow (s.length + 1)) (depth : Nat) :
    Bounded depth (0x7B :: s) (Admitted depth) (outcome (value depth (0x7B :: s))) := by
  rw [outcome_value_object]
  have hinside : ∀ t : Text, t.length ≤ s.length →
      Bounded (depth - 1) t (fun ms => ∀ m ∈ ms, Admitted (depth - 1) m.2) (outcome (members (depth - 1) t)) := by
    intro t ht
    exact (ih t (Nat.lt_succ_of_le ht) (depth - 1)).2.2
  refine bracket_bounded rfl ?_ hinside ?_
  · intro hd
    exact (admitted_object_iff []).mpr ⟨hd, List.forall_mem_nil _⟩
  · intro hd ms hms
    exact (admitted_object_iff ms).mpr ⟨hd, hms⟩

/-- Reading a value keeps the bounds if reading all that is shorter does. -/
theorem value_bounded {s : Text} (ih : BoundedBelow s.length) (depth : Nat) :
    Bounded depth s (Admitted depth) (outcome (value depth s)) := by
  cases s with
  | nil =>
    rw [value]
    exact bounded_problem ..
  | cons c s =>
    -- The first code point tells which of the four kinds of value it is.
    by_cases hq : c = 0x22
    · exact hq ▸ value_text_bounded depth s
    by_cases hl : c = 0x5B
    · exact hl ▸ value_list_bounded ih depth
    by_cases ho : c = 0x7B
    · exact ho ▸ value_object_bounded ih depth
    · rw [value_eq_scalar hq hl ho]
      exact scalar_bounded (c :: s)

/-- What follows a part: the closing bracket, or a comma and more parts. -/
theorem parts_bounded {α : Type} {P : α → Prop} {s r : Text} {a : α} {close : CodePoint}
    {f : Text → Except Stop (List α × Text)} (ha : P a) (hr : r <:+ s)
    (hf : ∀ t : Text, t <:+ r → t.length < r.length →
      Bounded depth t (fun as => ∀ a ∈ as, P a) (f t)) :
    Bounded depth s (fun as => ∀ a ∈ as, P a) (
      match skipBlanks r with
      | [] => .error (.problem .commaExpected 0)
      | c :: after =>
        if c = close then .ok ([a], after)
        else if c ≠ ',' then .error (.problem .commaExpected (after.length + 1))
        else do
          let (as, r') ← f (skipBlanks after)
          .ok (a :: as, r')) := by
  have hblanks := skipBlanks_suffix r
  split
  · exact bounded_problem ..
  next c after hskip =>
    rw [hskip] at hblanks
    have hafter : after <:+ r := (List.suffix_cons c after).trans hblanks
    split
    · exact bounded_ok (List.forall_mem_singleton.mpr ha) (hafter.trans hr)
    split
    · exact bounded_problem ..
    · -- The comma and the blanks are gone, so the rest is shorter and the bound of the tail applies.
      have hnext := skipBlanks_suffix after
      have hlt : (skipBlanks after).length < r.length :=
        Nat.lt_of_le_of_lt hnext.length_le (Nat.lt_of_lt_of_le (Nat.lt_succ_self _) hblanks.length_le)
      have hrest := (hf _ (hnext.trans hafter) hlt).of_suffix (hnext.trans (hafter.trans hr))
      exact bounded_bind hrest fun as _ _ has h => bounded_ok (List.forall_mem_cons.mpr ⟨ha, has⟩) h

/-- Reading items keeps the bounds if reading all that is shorter does. -/
theorem items_bounded {s : Text} (ih : BoundedBelow s.length) (depth : Nat) :
    Bounded depth s (fun js => ∀ j ∈ js, Admitted depth j) (outcome (items depth s)) := by
  rw [outcome_items]
  apply bounded_bind (value_bounded ih depth)
  intro j r _ hj hr
  apply parts_bounded (f := fun t => outcome (items depth t)) hj hr
  intro t _ hlt
  exact (ih t (hlt.trans_le hr.length_le) depth).2.1

/-- Reading members keeps the bounds if reading all that is shorter does. -/
theorem members_bounded {s : Text} (ih : BoundedBelow s.length) (depth : Nat) :
    Bounded depth s (fun ms => ∀ m ∈ ms, Admitted depth m.2) (outcome (members depth s)) := by
  cases s with
  | nil =>
    rw [members]
    exact bounded_problem ..
  | cons c s =>
    by_cases hq : c = 0x22
    · subst hq
      rw [outcome_members]
      have hkey : Bounded depth (0x22 :: s) (fun _ => True) (outcome (stringBody (0x22 :: s) s)) :=
        (stringBody_bounded (0x22 :: s) s).of_suffix (List.suffix_cons 0x22 s)
      apply bounded_bind hkey
      intro k r _ _ hr
      have hblanks := skipBlanks_suffix r
      dsimp only
      split
      · exact bounded_problem ..
      next d after hskip =>
        rw [hskip] at hblanks
        split
        · exact bounded_problem ..
        -- The value after the colon stands further on than the key.
        have hnext := skipBlanks_suffix after
        have hafter : skipBlanks after <:+ 0x22 :: s :=
          (hnext.trans (List.suffix_cons d after)).trans (hblanks.trans hr)
        have hlt : (skipBlanks after).length < (0x22 :: s).length :=
          Nat.lt_of_le_of_lt hnext.length_le
            (Nat.lt_of_lt_of_le (Nat.lt_succ_self _) (hblanks.trans hr).length_le)
        have hvalue := (ih _ hlt depth).1.of_suffix hafter
        apply bounded_bind hvalue
        intro j r' _ hj hr'
        apply parts_bounded (P := fun m => Admitted depth m.2) (a := (k, j))
          (f := fun t => outcome (members depth t)) hj hr'
        intro t _ hlt
        exact (ih t (hlt.trans_le hr'.length_le) depth).2.2
    · have hstop : members depth (c :: s) = .error (.problem .nameExpected (s.length + 1)) := by
        have hq' : c ≠ CodePoint.ofChar '"' := hq
        rw [members, if_pos hq']
      rw [hstop]
      exact bounded_problem ..

/-- Whatever a text holds, reading it keeps within bounds. -/
theorem boundedBelow (n : Nat) : BoundedBelow n := by
  induction n with
  | zero =>
    intro t ht
    exact absurd ht (Nat.not_lt_zero _)
  | succ n ih =>
    intro t ht depth
    have hbelow : BoundedBelow t.length := fun u hu => ih u (hu.trans_le (Nat.le_of_lt_succ ht))
    exact ⟨value_bounded hbelow depth, items_bounded hbelow depth, members_bounded hbelow depth⟩

/-! ## Documents -/

/-- What a text is read as keeps within the bounds. -/
theorem admitted_of_readRaw {s : Text} {j : Json} (h : readRaw s = .ok j) : Admitted maxDepth j := by
  have hvalue := value_bounded (boundedBelow _) maxDepth (s := skipBlanks s)
  rw [readRaw] at h
  split at h
  · cases h
  next k r hk =>
    have hread : outcome (value maxDepth (skipBlanks s)) = .ok (k, r.val) := by rw [hk, outcome_ok]
    split at h
    · cases h
      exact (hvalue.taken _ _ hread).1
    · cases h

/-- Reading stops at the bound on brackets only if more of them open in the text. -/
theorem openings_of_readRaw {s : Text} (h : readRaw s = .error .tooDeep) : maxDepth < openings s := by
  have hvalue := (value_bounded (boundedBelow _) maxDepth).of_suffix (skipBlanks_suffix s)
  rw [readRaw] at h
  split at h
  · next stop hstop =>
    apply hvalue.tooDeep
    rw [outcome_eq_error_iff, hstop, Except.error.inj h]
  · split at h
    · cases h
    · cases h

/-- A document that was read is not nested too deeply, and no object in it has a key twice. -/
theorem admitted_of_readUnmarked {s : Text} {j : Json} (h : readUnmarked s = .ok j) :
    Admitted maxDepth j ∧ DistinctKeys j := by
  rw [readUnmarked] at h
  split at h
  · next k hk =>
    cases h
    exact ⟨admitted_joined (admitted_of_readRaw hk), distinctKeys_joined k⟩
  · cases h

/-- What is read strictly does not repeat a key. -/
theorem distinctKeys_of_readStrict {bytes : Bytes} {j : Json} (h : readStrict? bytes = some j) :
    DistinctKeys j := by
  rw [readStrict?] at h
  split at h
  · cases h
  split at h
  · cases h
  · next k _ =>
    obtain ⟨_, hj⟩ := Option.ite_none_left_eq_some.mp h
    exact Option.some.inj hj ▸ distinctKeys_joined k

/-- Only a text with more brackets than the limit can be nested too deeply for the reader. -/
theorem openings_of_readUnmarked {s : Text} (h : readUnmarked s = .error .tooDeep) :
    maxDepth < openings s := by
  rw [readUnmarked] at h
  split at h
  · cases h
  · next stop hstop =>
    apply openings_of_readRaw
    cases stop with
    | tooDeep => exact hstop
    | _ => cases h

/-- Octets are read if they are a text and the text is read. -/
theorem readBytes_eq_ok_iff {bytes : Bytes} {j : Json} :
    readBytes bytes = .ok j ↔ ∃ s, Text.ofDocument bytes = .ok s ∧ readUnmarked s = .ok j := by
  rw [readBytes]
  cases Text.ofDocument bytes with
  | error fault => simp
  | ok s => simp [mapError_eq_ok_iff]

theorem readBytes_eq_document_iff {bytes : Bytes} {fault : Fault} :
    readBytes bytes = .error (.document fault) ↔
      ∃ s, Text.ofDocument bytes = .ok s ∧ readUnmarked s = .error fault := by
  rw [readBytes]
  cases Text.ofDocument bytes with
  | error fault => simp
  | ok s => simp [mapError_eq_error_iff]

/-- The document of any octets keeps within the bounds. -/
theorem admitted_of_readBytes {bytes : Bytes} {j : Json} (h : readBytes bytes = .ok j) :
    Admitted maxDepth j ∧ DistinctKeys j := by
  obtain ⟨s, _, hread⟩ := readBytes_eq_ok_iff.mp h
  exact admitted_of_readUnmarked hread

/-- Octets in whose text few brackets open are never too deep. -/
theorem openings_of_readBytes {bytes : Bytes} (h : readBytes bytes = .error (.document .tooDeep)) :
    ∃ s, Text.ofDocument bytes = .ok s ∧ maxDepth < openings s := by
  obtain ⟨s, hs, hread⟩ := readBytes_eq_document_iff.mp h
  exact ⟨s, hs, openings_of_readUnmarked hread⟩

/-! ## Brackets in a row -/

theorem exists_replicate_succ {α : Type} {k n : Nat} (h : k < n) (a : α) :
    ∃ m, n = m + 1 ∧ List.replicate n a = a :: List.replicate m a := by
  obtain ⟨m, rfl⟩ := Nat.exists_eq_succ_of_ne_zero (Nat.ne_of_gt (Nat.zero_lt_of_lt h))
  exact ⟨m, rfl, List.replicate_succ⟩

/-- More brackets than there is depth lead to the end of the depth. -/
theorem value_brackets {depth n : Nat} (h : depth < n) (s : Text) :
    outcome (value depth (List.replicate n 0x5B ++ s)) = .error .tooDeep := by
  induction depth generalizing n with
  | zero =>
    obtain ⟨m, rfl, hm⟩ := exists_replicate_succ h (0x5B : CodePoint)
    rw [hm, List.cons_append, outcome_value_list, if_pos rfl]
  | succ depth ih =>
    obtain ⟨m, rfl, hm⟩ := exists_replicate_succ h (0x5B : CodePoint)
    have hinside := ih (Nat.lt_of_succ_lt_succ h)
    -- What is inside starts with a bracket again, so it is no empty list.
    obtain ⟨k, rfl, hk⟩ := exists_replicate_succ (Nat.lt_of_succ_lt_succ h) (0x5B : CodePoint)
    have hd : ¬ (0x5B : CodePoint) = CodePoint.ofChar ']' := by decide
    rw [hk, List.cons_append] at hinside
    rw [hm, hk, List.cons_append, List.cons_append, outcome_value_list, if_neg (Nat.succ_ne_zero depth),
      skipBlanks_cons (by decide)]
    simp only [if_neg hd, Nat.add_sub_cancel, outcome_items, hinside, bind, Except.bind]

/-- A text that starts with more brackets than may be open is too deep, whatever follows. -/
theorem readUnmarked_brackets {n : Nat} (h : maxDepth < n) (s : Text) :
    readUnmarked (List.replicate n 0x5B ++ s) = .error .tooDeep := by
  have hvalue := outcome_eq_error_iff.mp (value_brackets h s)
  have hskip : skipBlanks (List.replicate n 0x5B ++ s) = List.replicate n 0x5B ++ s := by
    obtain ⟨m, rfl, hm⟩ := exists_replicate_succ h (0x5B : CodePoint)
    rw [hm, List.cons_append, skipBlanks_cons (by decide)]
  rw [← hskip] at hvalue
  rw [readUnmarked, readRaw, hvalue]
  rfl

theorem encodeAny_brackets (n : Nat) : Utf8.encodeAny (List.replicate n 0x5B) = List.replicate n 0x5B := by
  induction n with
  | zero => rfl
  | succ n ih =>
    rw [List.replicate_succ, List.replicate_succ, ← ih]
    rfl

theorem ofDocument_brackets {n : Nat} (h : 1 < n) :
    Text.ofDocument (List.replicate n 0x5B) = .ok (List.replicate n 0x5B) := by
  have hclean : ∀ c ∈ List.replicate n (0x5B : CodePoint), c.isSurrogate = false := by
    intro c hc
    rw [List.eq_of_mem_replicate hc]
    rfl
  have hencode := (Utf8.encode_eq_ok_iff _ _).mpr ⟨hclean, rfl⟩
  have hdecode := Utf8.decode_of_encode hencode true
  have hprefix : List.replicate n (0x5B : UInt8) <+: Utf8.encodeAny (List.replicate n 0x5B) :=
    encodeAny_brackets n ▸ List.prefix_rfl
  obtain ⟨m, rfl, hm⟩ := exists_replicate_succ h (0x5B : CodePoint)
  obtain ⟨k, rfl, hk⟩ := exists_replicate_succ (Nat.lt_of_succ_lt_succ h) (0x5B : CodePoint)
  rw [hm, hk] at hprefix
  rw [encodeAny_brackets] at hdecode
  rw [Text.ofDocument, Utf8.detect_of_isPrefix (by decide) (by decide) (by decide) hprefix]
  exact hdecode

/-- So are the octets of the brackets alone. -/
theorem readBytes_brackets {n : Nat} (h : maxDepth < n) :
    readBytes (List.replicate n 0x5B) = .error (.document .tooDeep) := by
  have hread := readUnmarked_brackets h []
  rw [List.append_nil] at hread
  exact readBytes_eq_document_iff.mpr ⟨_, ofDocument_brackets (Nat.lt_of_le_of_lt (by decide) h), hread⟩

end CanonStore.Json
