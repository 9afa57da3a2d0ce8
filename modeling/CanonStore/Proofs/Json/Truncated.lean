import CanonStore.Proofs.Json.Grammar
import CanonStore.Proofs.Text.Pieces

/-!
# Documents cut short

Nothing is read from a written document that is cut short, unless it is a number: there is no other place to
cut where what is left is a document, and the reader meets a problem rather than its bound on open brackets. A
number cut short may still be read, as another one (`Stuck`); what follows such a value then neither goes on to
the next part nor closes the list or object around it. Main statements: `readRaw_cut`
for texts, `readBytes_cut` and `readStrict_cut` for octets.
-/

namespace CanonStore.Json

/-- A step meets a problem, and that is not the bound on open brackets. -/
def Fails {α : Type} {s : Text} (step : Step α s) : Prop := ∃ stop, step = .error stop ∧ stop ≠ .tooDeep

theorem fails_iff {α : Type} {s : Text} {step : Step α s} :
    Fails step ↔ ∃ stop, outcome step = .error stop ∧ stop ≠ .tooDeep := by
  simp only [Fails, outcome_eq_error_iff]

/-- What a value may be followed by: blanks, a comma or a closing bracket. -/
def Separates (c : CodePoint) : Bool := isBlank c || c = ',' || c = ']' || c = '}'

/-- A value that is not followed as a part of a list or an object has to be. -/
def Stuck {s : Text} (step : Step Json s) : Prop :=
  Fails step ∨ ∃ j rest, Gives step j rest ∧ StopsAt Separates rest

theorem stopsAt_nil (p : CodePoint → Bool) : StopsAt p [] := by simp [StopsAt]

/-- Where a text stops, every beginning of it stops. -/
theorem StopsAt.of_isPrefix {p : CodePoint → Bool} {s t : Text} (hs : StopsAt p t) (h : s <+: t) :
    StopsAt p s := by
  obtain ⟨u, rfl⟩ := h
  cases s with
  | nil => exact stopsAt_nil p
  | cons c s => exact stopsAt_cons (hs c rfl)

theorem separates_eq_false_iff (c : CodePoint) : Separates c = false ↔
    isBlank c = false ∧ c ≠ CodePoint.ofChar ',' ∧ c ≠ CodePoint.ofChar ']' ∧ c ≠ CodePoint.ofChar '}' := by
  simp only [Separates, Bool.or_eq_false_iff, decide_eq_false_iff_not, and_assoc]

/-- A value that is stuck is not read, or what follows it is neither skipped nor a mark. -/
theorem Stuck.cases {s : Text} {step : Step Json s} (h : Stuck step) :
    (∃ stop, outcome step = .error stop ∧ stop ≠ .tooDeep) ∨
      ∃ j rest, outcome step = .ok (j, rest) ∧ skipBlanks rest = rest ∧
        ∀ c ∈ rest.head?,
          c ≠ CodePoint.ofChar ',' ∧ c ≠ CodePoint.ofChar ']' ∧ c ≠ CodePoint.ofChar '}' := by
  refine h.imp fails_iff.mp ?_
  rintro ⟨j, rest, hgives, hrest⟩
  have hsplit : ∀ c ∈ rest.head?, _ := fun c hc => (separates_eq_false_iff c).mp (hrest c hc)
  refine ⟨j, rest, gives_iff.mp hgives, ?_, fun c hc => (hsplit c hc).2⟩
  exact skipBlanks_of_stopsAt fun c hc => (hsplit c hc).1

/-- A value that is read up to the very end is stuck: nothing follows that would separate it. -/
theorem Gives.stuck_of_end {s : Text} {step : Step Json s} {j : Json} (h : Gives step j []) : Stuck step :=
  .inr ⟨j, [], h, stopsAt_nil _⟩

/-! ## Words and numbers -/

/-- A code point of a word or a number: it neither separates nor opens anything. -/
def IsBare (c : CodePoint) : Prop := Separates c = false ∧ c ∉ [(0x22 : CodePoint), 0x5B, 0x7B]

instance (c : CodePoint) : Decidable (IsBare c) := inferInstanceAs (Decidable (_ ∧ _))

theorem isBare_of_isDigit {c : CodePoint} (h : c.isDigit) : IsBare c := by
  have hrange : 0x30 ≤ c.val ∧ c.val ≤ 0x39 := by
    rwa [CodePoint.isDigit, Bool.and_eq_true, decide_eq_true_eq, decide_eq_true_eq] at h
  have hne : ∀ a : CodePoint, ¬ (0x30 ≤ a.val ∧ a.val ≤ 0x39) → ¬ c = a := by
    rintro a ha rfl
    exact ha hrange
  refine ⟨?_, ?_⟩
  · rw [Separates, not_isBlank_of_lt (by omega), decide_eq_false (hne (CodePoint.ofChar ',') (by decide)),
      decide_eq_false (hne (CodePoint.ofChar ']') (by decide)),
      decide_eq_false (hne (CodePoint.ofChar '}') (by decide))]
    rfl
  · simp only [List.mem_cons, List.not_mem_nil, or_false, not_or]
    exact ⟨hne _ (by decide), hne _ (by decide), hne _ (by decide)⟩

/-- A number is bare from end to end. -/
theorem isBare_of_isNumber {s : Text} (h : IsNumber s) : ∀ c ∈ s, IsBare c := by
  refine h.forall_mem (fun _ => isBare_of_isDigit) ?_
  simp only [numberMarks, List.forall_mem_cons]
  exact ⟨by decide, by decide, by decide, by decide, by decide, List.forall_mem_nil _⟩

/-- A word is bare from end to end. -/
theorem isBare_of_mem_plainWords {w : Text} (h : w ∈ plainWords) : ∀ c ∈ w, IsBare c := by
  have hall : (plainWords.all fun w => w.all fun c => decide (IsBare c)) = true := rfl
  intro c hc
  exact of_decide_eq_true (List.all_eq_true.mp (List.all_eq_true.mp hall w h) c hc)

theorem suffix_of_takeWord {s : Text} {w : Json × Text} (h : takeWord? s = some w) : w.2 <:+ s := by
  obtain ⟨word, _, found⟩ := List.exists_of_findSome?_eq_some h
  obtain ⟨rest, dropped, rfl⟩ := Option.map_eq_some_iff.mp found
  exact ⟨word.1, (Text.dropPrefix?_eq_some_iff.mp dropped).symm⟩

theorem suffix_takeNumber {s : Text} (h : (takeNumber s).whole ≠ []) : (takeNumber s).rest <:+ s := by
  obtain ⟨t, _, hs⟩ := takeNumber_spec h
  exact ⟨t, hs.symm⟩

theorem unsigned_suffix (s : Text) : unsigned s <:+ s := by
  unfold unsigned
  split
  · exact List.drop_suffix 1 s
  · exact List.suffix_refl s

/-- Numbers are not nested. -/
theorem Numeric.value_ne_tooDeep (n : Numeric) (negative : Bool) : n.value negative ≠ .error .tooDeep := by
  unfold Numeric.value
  split
  · split <;> simp
  · simp

/-- A text that starts neither with a word nor with a number has no value. -/
theorem scalar_fails {s : Text} (hword : takeWord? s = none) (hwhole : (takeNumber (unsigned s)).whole = []) :
    Fails (scalar s) := by
  refine ⟨.problem .valueExpected s.length, ?_, by simp⟩
  unfold scalar
  split
  · next hw => exact absurd (hw.symm.trans hword) (by simp)
  · exact dif_pos hwhole

/-- A scalar meets a problem, or it leaves an end of the text. -/
theorem scalar_cases (s : Text) :
    Fails (scalar s) ∨ ∃ j rest, Gives (scalar s) j rest ∧ rest <:+ s := by
  -- A word is tried first, then a number.
  cases hword : takeWord? s with
  | some w => exact .inr ⟨w.1, w.2, scalar_word hword, suffix_of_takeWord hword⟩
  | none =>
    by_cases hwhole : (takeNumber (unsigned s)).whole = []
    · exact .inl (scalar_fails hword hwhole)
    · cases hvalue : (takeNumber (unsigned s)).value (s.head? = some 0x2D) with
      | error stop =>
        refine .inl ⟨stop, ?_, fun h => Numeric.value_ne_tooDeep _ _ (h ▸ hvalue)⟩
        unfold scalar
        split
        · next hw => exact absurd (hw.symm.trans hword) (by simp)
        · dsimp only
          rw [dif_neg hwhole]
          split
          · next hstop => exact congrArg Except.error (Except.error.inj (hstop.symm.trans hvalue))
          · next hj => exact absurd (hj.symm.trans hvalue) (by simp)
      | ok j =>
        exact .inr ⟨j, _, scalar_number hword hwhole rfl hvalue,
          (suffix_takeNumber hwhole).trans (unsigned_suffix s)⟩

/-- Nothing at all is no value. -/
theorem value_nil (depth : Nat) : Fails (value depth []) := by
  refine ⟨.problem .valueExpected 0, ?_, by simp⟩
  rw [value]

/-- A word or a number may be read where it is cut short, but what is left of it goes on with none of the
code points that follow a value. -/
theorem value_bare {s : Text} (h : ∀ c ∈ s, IsBare c) (depth : Nat) : Stuck (value depth s) := by
  cases s with
  | nil => exact .inl (value_nil depth)
  | cons c s =>
    have hc := (h c List.mem_cons_self).2
    simp only [List.mem_cons, List.not_mem_nil, or_false, not_or] at hc
    obtain ⟨hq, hl, ho⟩ := hc
    rw [value_eq_scalar hq hl ho]
    rcases scalar_cases (c :: s) with hfails | ⟨j, rest, hgives, hsuffix⟩
    · exact .inl hfails
    -- What is left over is an end of the same word or number.
    · exact .inr ⟨j, rest, hgives, fun d hd => (h d (hsuffix.subset (List.mem_of_mem_head? hd))).1⟩

/-- A word that is cut short is no word, and no number. -/
theorem value_word_cut {w p : Text} (hw : w ∈ plainWords) (h : Cut p w) (depth : Nat) : Fails (value depth p) := by
  cases p with
  | nil => exact value_nil depth
  | cons c s =>
    have hall : (plainWords.all fun w => (List.range w.length).all fun n =>
        (takeWord? (w.take n)).isNone && (takeNumber (unsigned (w.take n))).whole.isEmpty) = true := rfl
    have hp := List.all_eq_true.mp (List.all_eq_true.mp hall w hw) _ (List.mem_range.mpr h.length_lt)
    rw [← List.prefix_iff_eq_take.mp h.1, Bool.and_eq_true, Option.isNone_iff_eq_none, List.isEmpty_iff] at hp
    have hc := (isBare_of_mem_plainWords hw c (h.subset List.mem_cons_self)).2
    simp only [List.mem_cons, List.not_mem_nil, or_false, not_or] at hc
    obtain ⟨hq, hl, ho⟩ := hc
    rw [value_eq_scalar hq hl ho]
    exact scalar_fails hp.1 hp.2

/-! ## Literals -/

/-- Four digits are needed. -/
theorem unitEscapeAt_short {s : Text} (h : s.drop 4 = []) : Fails (unitEscapeAt s) := by
  refine ⟨.problem .badUnicodeEscape (s.length + 1), ?_, by simp⟩
  unfold unitEscapeAt
  exact dif_pos h

section Item

variable (opened : Text)

theorem stringItem_nil : Fails (stringItem opened []) :=
  ⟨.problem .unterminatedString opened.length, rfl, by simp⟩

/-- A backslash alone is the start of an escape. -/
theorem stringItem_backslash : Fails (stringItem opened [0x5C]) :=
  ⟨.problem .unterminatedString opened.length, rfl, by simp⟩

theorem stringItem_unit_fails {after : Text} (h : Fails (unitEscapeAt after)) :
    Fails (stringItem opened (0x5C :: 0x75 :: after)) := by
  rw [fails_iff] at h ⊢
  obtain ⟨stop, hstop, hne⟩ := h
  exact ⟨stop, by rw [outcome_stringItem_unit, hstop]; rfl, hne⟩

/-- A code point that is cut short meets a problem, and a whole one is read. -/
theorem stringItem_cut (c : CodePoint) {p rest : Text} (h : Cut p (escapeOne .fewest c ++ rest)) :
    Fails (stringItem opened p) ∨ ∃ q, Cut q rest ∧ Gives (stringItem opened p) (some c) q := by
  rcases escapeOne_cases c with ⟨e, hu, hv, he⟩ | ⟨hc, he⟩ | ⟨hq, hb, hc, he⟩
  · rw [he] at h
    rcases cut_cons_iff.mp h with rfl | ⟨p, rfl, hp⟩
    · exact .inl (stringItem_nil opened)
    rcases cut_cons_iff.mp hp with rfl | ⟨q, rfl, hq⟩
    · exact .inl (stringItem_backslash opened)
    · exact .inr ⟨q, hq, stringItem_escape opened hu hv⟩
  · have hunit : unitEscape c.val ++ rest = 0x5C :: 0x75 :: (Numeral.hexPadded 4 c.val ++ rest) := rfl
    rw [he, hunit] at h
    rcases cut_cons_iff.mp h with rfl | ⟨p, rfl, hp⟩
    · exact .inl (stringItem_nil opened)
    rcases cut_cons_iff.mp hp with rfl | ⟨p, rfl, hdigits⟩
    · exact .inl (stringItem_backslash opened)
    rcases hdigits.append_cases with hshort | ⟨q, rfl, hq⟩
    · have hlen := hshort.length_lt
      rw [length_hexPadded_four (by omega)] at hlen
      exact .inl (stringItem_unit_fails opened (unitEscapeAt_short (List.drop_eq_nil_of_le hlen.le)))
    by_cases hne : q = []
    · -- Not even four digits are an escape if nothing follows them.
      have hlen := length_hexPadded_four (n := c.val) (by omega)
      rw [hne, List.append_nil]
      exact .inl (stringItem_unit_fails opened (unitEscapeAt_short (List.drop_eq_nil_of_le hlen.le)))
    · have hgives := stringItem_fewest opened c hne
      rw [he] at hgives
      exact .inr ⟨q, hq, hgives⟩
  · rw [he] at h
    rcases cut_cons_iff.mp h with rfl | ⟨q, rfl, hrest⟩
    · exact .inl (stringItem_nil opened)
    · exact .inr ⟨q, hrest, stringItem_plain opened hq hc hb⟩

/-- A literal that is cut short is not read. -/
theorem stringBody_cut (t : Text) {p : Text} (h : Cut p (t.flatMap (escapeOne .fewest) ++ [0x22])) :
    Fails (stringBody opened p) := by
  induction t generalizing p with
  | nil =>
    obtain rfl := h.eq_nil_of_singleton
    obtain ⟨stop, hstop, hne⟩ := stringItem_nil opened
    refine ⟨stop, ?_, hne⟩
    rw [stringBody, hstop]
  | cons c t ih =>
    rw [List.flatMap_cons, List.append_assoc] at h
    rcases stringItem_cut opened c h with ⟨stop, hstop, hne⟩ | ⟨q, hq, _, hitem⟩
    · refine ⟨stop, ?_, hne⟩
      rw [stringBody, hstop]
    · obtain ⟨stop, hstop, hne⟩ := ih hq
      refine ⟨stop, ?_, hne⟩
      rw [stringBody, hitem]
      simp only [hstop]

end Item

/-- A quoted text that is cut off has no quotation mark at its end. -/
theorem value_quote_cut (t : Text) (depth : Nat) {p : Text} (h : Cut p (quote .fewest t)) :
    Fails (value depth p) := by
  rcases cut_cons_iff.mp h with rfl | ⟨q, rfl, hq⟩
  · exact value_nil depth
  · obtain ⟨stop, hstop, hne⟩ := stringBody_cut (0x22 :: q) t hq
    have hquote : (0x22 : CodePoint) = CodePoint.ofChar '"' := rfl
    refine ⟨stop, ?_, hne⟩
    rw [value, if_pos hquote]
    simp only [hstop]

/-! ## Items and members -/

section Parts

variable {depth : Nat} {s : Text} {j : Json}

/-- After a value that is stuck, no comma and no bracket is found. -/
theorem items_stuck (h : Stuck (value depth s)) : Fails (items depth s) := by
  rw [fails_iff, outcome_items]
  rcases h.cases with ⟨stop, hstop, hne⟩ | ⟨j, rest, hvalue, hskip, hmark⟩
  · exact ⟨stop, by rw [hstop]; rfl, hne⟩
  simp only [hvalue, bind, Except.bind, hskip]
  cases rest with
  | nil => exact ⟨.problem .commaExpected 0, rfl, by simp⟩
  | cons c after =>
    obtain ⟨hcomma, hbracket, _⟩ := hmark c rfl
    simp only [if_neg hbracket, if_pos hcomma]
    exact ⟨_, rfl, by simp⟩

/-- After a comma the next items are read. -/
theorem items_next {s' : Text} (h : Gives (value depth s) j (0x2C :: s')) (hblank : StopsAt isBlank s')
    (hs' : Fails (items depth s')) : Fails (items depth s) := by
  have hskip : skipBlanks (0x2C :: s') = 0x2C :: s' := skipBlanks_cons (by decide) s'
  have hl : ¬ (0x2C : CodePoint) = CodePoint.ofChar ']' := by decide
  have hc : ¬ (0x2C : CodePoint) ≠ CodePoint.ofChar ',' := by decide
  rw [gives_iff] at h
  rw [← skipBlanks_of_stopsAt hblank] at hs'
  rw [fails_iff] at hs' ⊢
  obtain ⟨stop, hstop, hne⟩ := hs'
  refine ⟨stop, ?_, hne⟩
  simp only [outcome_items depth s, h, bind, Except.bind, hskip, if_neg hl, if_neg hc, hstop]

theorem members_nil : Fails (members depth []) := by
  refine ⟨.problem .nameExpected 0, ?_, by simp⟩
  rw [members]

theorem members_name {s : Text} (h : Fails (stringBody (0x22 :: s) s)) :
    Fails (members depth (0x22 :: s)) := by
  obtain ⟨stop, hstop, hne⟩ := h
  have hq : ¬ (0x22 : CodePoint) ≠ CodePoint.ofChar '"' := by decide
  refine ⟨stop, ?_, hne⟩
  rw [members]
  simp only [if_neg hq, hstop]

/-- A key alone is no member. -/
theorem members_key (k : Text) : Fails (members depth (quote .fewest k)) := by
  have h := outcome_members_quote (quotable_fewest k) depth []
  rw [List.append_nil] at h
  rw [fails_iff, h]
  exact ⟨.problem .colonExpected 0, rfl, by simp⟩

/-- An object fails where the value of a member gets stuck. -/
theorem members_stuck {k : Text} (hblank : StopsAt isBlank s) (h : Stuck (value depth s)) :
    Fails (members depth (quote .fewest k ++ 0x3A :: s)) := by
  rw [fails_iff, outcome_members_value (quotable_fewest k) (skipBlanks_of_stopsAt hblank)]
  rcases h.cases with ⟨stop, hstop, hne⟩ | ⟨j, rest, hvalue, hskip, hmark⟩
  · exact ⟨stop, by rw [hstop]; rfl, hne⟩
  simp only [hvalue, bind, Except.bind, hskip]
  cases rest with
  | nil => exact ⟨.problem .commaExpected 0, rfl, by simp⟩
  | cons c after =>
    obtain ⟨hcomma, _, hbrace⟩ := hmark c rfl
    simp only [if_neg hbrace, if_pos hcomma]
    exact ⟨_, rfl, by simp⟩

/-- An object fails where its further members do. -/
theorem members_next {k s' : Text} (hblank : StopsAt isBlank s)
    (h : Gives (value depth s) j (0x2C :: s')) (hblank' : StopsAt isBlank s')
    (hs' : Fails (members depth s')) : Fails (members depth (quote .fewest k ++ 0x3A :: s)) := by
  have hskip : skipBlanks (0x2C :: s') = 0x2C :: s' := skipBlanks_cons (by decide) s'
  have hb : ¬ (0x2C : CodePoint) = CodePoint.ofChar '}' := by decide
  have hc : ¬ (0x2C : CodePoint) ≠ CodePoint.ofChar ',' := by decide
  rw [gives_iff] at h
  rw [← skipBlanks_of_stopsAt hblank'] at hs'
  rw [fails_iff] at hs' ⊢
  obtain ⟨stop, hstop, hne⟩ := hs'
  refine ⟨stop, ?_, hne⟩
  simp only [outcome_members_value (quotable_fewest k) (skipBlanks_of_stopsAt hblank), h, bind, Except.bind, hskip, if_neg hb, if_neg hc, hstop]

end Parts

/-! ## Documents -/

/-- Where the text of a value and of what follows it is cut, the value is stuck or whole. -/
theorem value_cut_append {depth : Nat} {j : Json} (hread : Readable depth j)
    (hcut : ∀ {p : Text}, Cut p (compact j) → Stuck (value depth p)) {p : Text} {c : CodePoint}
    {rest : Text} (h : Cut p (compact j ++ c :: rest)) :
    Stuck (value depth p) ∨ ∃ q, p = compact j ++ c :: q ∧ Cut q rest := by
  rcases h.append_cases with hp | ⟨q, rfl, hq⟩
  · exact .inl (hcut hp)
  rcases cut_cons_iff.mp hq with rfl | ⟨q, rfl, hrest⟩
  · exact .inl (value_compact j hread closes_nil).stuck_of_end
  · exact .inr ⟨q, rfl, hrest⟩

/-- Items one of which is cut short, or that are not closed. -/
theorem items_cut {depth : Nat} {items : List Json} (hread : ItemsReadable depth items) (hne : items ≠ [])
    (hcut : ∀ j ∈ items, ∀ {p : Text}, Cut p (compact j) → Stuck (value depth p)) {p : Text}
    (h : Cut p (compactItems items ++ [0x5D])) : Fails (Json.items depth p) := by
  induction items generalizing p with
  | nil => exact absurd rfl hne
  | cons j rest ih =>
    obtain ⟨hj, hrest⟩ := hread
    obtain ⟨hcutj, hcutrest⟩ := List.forall_mem_cons.mp hcut
    -- The last item is followed by the bracket: a cut behind both would be no cut.
    by_cases hlast : rest = []
    · rw [hlast, compactItems] at h
      rcases value_cut_append hj hcutj h with hstuck | ⟨q, _, hq⟩
      · exact items_stuck hstuck
      · exact absurd hq not_cut_nil
    · rw [compactItems_cons j hlast, List.append_assoc, List.cons_append] at h
      rcases value_cut_append hj hcutj h with hstuck | ⟨q, rfl, hq⟩
      · exact items_stuck hstuck
      · obtain ⟨c, t, hstart, hc⟩ := hrest.start hlast
        have hblank : StopsAt isBlank (compactItems rest ++ [0x5D]) := by
          rw [hstart, List.cons_append]
          exact stopsAt_cons hc.not_isBlank
        exact items_next (value_compact j hj (closes_cons (by decide))) (hblank.of_isPrefix hq.1)
          (ih hrest hlast hcutrest hq)

/-- A key that is cut short, or the first part of a member. -/
theorem members_cut_key {depth : Nat} {k p rest : Text} (h : Cut p (quote .fewest k ++ 0x3A :: rest)) :
    Fails (members depth p) ∨ ∃ q, p = quote .fewest k ++ 0x3A :: q ∧ Cut q rest := by
  rcases h.append_cases with hp | ⟨q, rfl, hq⟩
  · rcases cut_cons_iff.mp hp with rfl | ⟨q, rfl, hq⟩
    · exact .inl members_nil
    · exact .inl (members_name (stringBody_cut _ k hq))
  rcases cut_cons_iff.mp hq with rfl | ⟨q, rfl, hrest⟩
  · rw [List.append_nil]
    exact .inl (members_key k)
  · exact .inr ⟨q, rfl, hrest⟩

/-- Members one of which is cut short, or that are not closed. -/
theorem members_cut {depth : Nat} {members : List (Text × Json)} (hread : MembersReadable depth members)
    (hne : members ≠ []) (hcut : ∀ m ∈ members, ∀ {p : Text}, Cut p (compact m.2) → Stuck (value depth p))
    {p : Text} (h : Cut p (compactMembers members ++ [0x7D])) : Fails (Json.members depth p) := by
  induction members generalizing p with
  | nil => exact absurd rfl hne
  | cons m rest ih =>
    obtain ⟨k, j⟩ := m
    obtain ⟨hj, hrest⟩ := hread
    obtain ⟨hcutj, hcutrest⟩ := List.forall_mem_cons.mp hcut
    -- The last member is followed by the brace, any other one by a comma and more members.
    by_cases hlast : rest = []
    · rw [hlast, compactMembers_singleton, List.append_assoc, List.cons_append] at h
      -- A cut inside the key fails at once; otherwise it is in the value or behind it.
      rcases members_cut_key h with hfails | ⟨q, rfl, hq⟩
      · exact hfails
      have hblank := (hj.stopsAt_isBlank [0x7D]).of_isPrefix hq.1
      rcases value_cut_append hj hcutj hq with hstuck | ⟨q, _, hq⟩
      · exact members_stuck hblank hstuck
      · exact absurd hq not_cut_nil
    · rw [compactMembers_cons k j hlast, List.append_assoc, List.cons_append, List.append_assoc,
        List.cons_append] at h
      rcases members_cut_key h with hfails | ⟨q, rfl, hq⟩
      · exact hfails
      have hblank := (hj.stopsAt_isBlank _).of_isPrefix hq.1
      rcases value_cut_append hj hcutj hq with hstuck | ⟨r, rfl, hr⟩
      · exact members_stuck hblank hstuck
      · exact members_next hblank (value_compact j hj (closes_cons (by decide)))
          ((stopsAt_isBlank_members hlast [0x7D]).of_isPrefix hr.1) (ih hrest hlast hcutrest hr)

section Container

variable {depth : Nat} {s p : Text}

/-- A list fails where its items do. -/
theorem value_list_fails (hd : 0 < depth) (hblank : StopsAt isBlank s) (hclose : StopsAt (· = 0x5D) s)
    (h : Fails (items (depth - 1) s)) : Fails (value depth (0x5B :: s)) := by
  rw [fails_iff] at h ⊢
  obtain ⟨stop, hstop, hne⟩ := h
  rw [outcome_value_list, if_neg hd.ne', skipBlanks_of_stopsAt hblank]
  cases s with
  | nil => exact ⟨.problem .valueExpected 0, rfl, by simp⟩
  | cons d after =>
    have hd' : ¬ d = CodePoint.ofChar ']' := of_decide_eq_false (hclose d rfl)
    simp only [if_neg hd', hstop, bind, Except.bind]
    exact ⟨stop, rfl, hne⟩

/-- An object fails where its members do. -/
theorem value_object_fails (hd : 0 < depth) (hblank : StopsAt isBlank s) (hclose : StopsAt (· = 0x7D) s)
    (h : Fails (members (depth - 1) s)) : Fails (value depth (0x7B :: s)) := by
  rw [fails_iff] at h ⊢
  obtain ⟨stop, hstop, hne⟩ := h
  rw [outcome_value_object, if_neg hd.ne', skipBlanks_of_stopsAt hblank]
  cases s with
  | nil => exact ⟨.problem .nameExpected 0, rfl, by simp⟩
  | cons d after =>
    have hd' : ¬ d = CodePoint.ofChar '}' := of_decide_eq_false (hclose d rfl)
    simp only [if_neg hd', hstop, bind, Except.bind]
    exact ⟨stop, rfl, hne⟩

/-- A list that is cut short, if its items are stuck where they are cut. -/
theorem value_list_cut {items : List Json} (hread : Readable depth (.list items))
    (hcut : ∀ j ∈ items, ∀ {q : Text}, Cut q (compact j) → Stuck (value (depth - 1) q))
    (h : Cut p (compact (.list items))) : Fails (value depth p) := by
  rw [compact_list] at h
  rcases cut_cons_iff.mp h with rfl | ⟨q, rfl, hq⟩
  · exact value_nil depth
  by_cases hne : items = []
  · rw [hne] at hq
    obtain rfl := hq.eq_nil_of_singleton
    exact value_list_fails hread.1 (stopsAt_nil _) (stopsAt_nil _) (items_stuck (.inl (value_nil _)))
  · obtain ⟨c, t, hstart, hc⟩ := hread.2.start hne
    -- A cut of the items starts as they do, as far as it goes: neither with a blank nor with the bracket.
    have hfirst : ∀ {stops : CodePoint → Bool}, stops c = false → StopsAt stops q := by
      intro stops hstops
      refine StopsAt.of_isPrefix ?_ hq.1
      rw [hstart]
      exact stopsAt_cons hstops
    exact value_list_fails hread.1 (hfirst hc.not_isBlank) (hfirst (decide_eq_false hc.ne_close))
      (items_cut hread.2 hne hcut hq)

/-- An object that is cut short, if the values of its members are stuck where they are cut. -/
theorem value_object_cut {members : List (Text × Json)} (hread : Readable depth (.object members))
    (hcut : ∀ m ∈ members, ∀ {q : Text}, Cut q (compact m.2) → Stuck (value (depth - 1) q))
    (h : Cut p (compact (.object members))) : Fails (value depth p) := by
  rw [compact_object] at h
  rcases cut_cons_iff.mp h with rfl | ⟨q, rfl, hq⟩
  · exact value_nil depth
  by_cases hne : members = []
  · rw [hne] at hq
    obtain rfl := hq.eq_nil_of_singleton
    exact value_object_fails hread.1 (stopsAt_nil _) (stopsAt_nil _) members_nil
  · obtain ⟨t, hstart⟩ := compactMembers_start hne
    -- The members start with a quote, so a cut of them starts with one or is empty.
    have hfirst : ∀ {stops : CodePoint → Bool}, stops 0x22 = false → StopsAt stops q := by
      intro stops hstops
      refine StopsAt.of_isPrefix ?_ hq.1
      rw [hstart]
      exact stopsAt_cons hstops
    exact value_object_fails hread.1 (hfirst (by decide)) (hfirst (by decide))
      (members_cut hread.2 hne hcut hq)

end Container

/-- A value that is cut short is stuck. -/
theorem value_cut {j : Json} {depth : Nat} (hread : Readable depth j) {p : Text} (h : Cut p (compact j)) :
    Stuck (value depth p) := by
  -- Parts are read under a smaller bound, and each may be the one that is cut.
  induction j generalizing depth p with
  | null => exact value_bare (fun c hc => isBare_of_mem_plainWords (by decide) c (h.subset hc)) depth
  | bool b =>
    have hword : compact (.bool b) ∈ plainWords := by cases b <;> decide
    exact value_bare (fun c hc => isBare_of_mem_plainWords hword c (h.subset hc)) depth
  | int n => exact value_bare (fun c hc => isBare_of_isNumber (isNumber_ofInt n) c (h.subset hc)) depth
  | float x =>
    exact value_bare (fun c hc => isBare_of_isNumber (isNumber_jsonText hread) c (h.subset hc)) depth
  | text t => exact .inl (value_quote_cut t depth h)
  | list items ih =>
    have hitems := ((readable_list_iff depth items).mp hread).2
    exact .inl (value_list_cut hread (fun j hj _ hq => ih j hj (hitems j hj) hq) h)
  | object members ih =>
    have hvalues := ((readable_object_iff depth members).mp hread).2
    exact .inl (value_object_cut hread (fun m hm _ hq => ih m hm (hvalues m hm) hq) h)

/-- A value that is no number is not read where it is cut short. -/
theorem value_selfDelimiting_cut {j : Json} (hj : SelfDelimiting j) {depth : Nat} (hread : Readable depth j)
    {p : Text} (h : Cut p (compact j)) : Fails (value depth p) := by
  cases j with
  | null => exact value_word_cut (by decide) h depth
  | bool b =>
    have hword : compact (.bool b) ∈ plainWords := by cases b <;> decide
    exact value_word_cut hword h depth
  | int | float => exact hj.elim
  | text t => exact value_quote_cut t depth h
  | list items =>
    have hitems := ((readable_list_iff depth items).mp hread).2
    exact value_list_cut hread (fun j hj _ hq => value_cut (hitems j hj) hq) h
  | object members =>
    have hvalues := ((readable_object_iff depth members).mp hread).2
    exact value_object_cut hread (fun m hm _ hq => value_cut (hvalues m hm) hq) h

/-- The compact text of a document that is no number is not read where it is cut short. -/
theorem readRaw_cut {j : Json} (hj : SelfDelimiting j) (hread : Readable maxDepth j) {p : Text}
    (h : Cut p (compact j)) : ∃ stop, readRaw p = .error stop ∧ stop ≠ .tooDeep := by
  have hblank := hread.stopsAt_isBlank []
  rw [List.append_nil] at hblank
  have hvalue := value_selfDelimiting_cut hj hread h
  rw [← skipBlanks_of_stopsAt (hblank.of_isPrefix h.1)] at hvalue
  obtain ⟨stop, hstop, hne⟩ := hvalue
  refine ⟨stop, ?_, hne⟩
  rw [readRaw, hstop]

/-! ## Octets -/

section Octets

variable {j : Json} {bytes p : Bytes}

/-- Octets that are cut short are no text, or a text that is no document. -/
theorem decode_cut (hj : SelfDelimiting j) (hread : Readable maxDepth j)
    (hbytes : Utf8.encode (write j) = .ok bytes) (h : Cut p bytes) (surrogates : Bool) :
    (∃ fault, Utf8.decode surrogates p = .error fault) ∨
      ∃ s stop, Utf8.decode surrogates p = .ok s ∧ readRaw s = .error stop ∧ stop ≠ .tooDeep := by
  obtain ⟨hclean, rfl⟩ := (Utf8.encode_eq_ok_iff _ _).mp hbytes
  rcases Utf8.decodeFrom_cut hclean h 0 with ⟨s, hs, rfl⟩ | hfault
  · obtain ⟨stop, hstop, hne⟩ := readRaw_cut (selfDelimiting_sorted hj) (readable_sorted hread) hs
    have hcleans : ∀ c ∈ s, c.isSurrogate = false := fun c hc => hclean c (hs.subset hc)
    exact .inr ⟨s, stop, Utf8.decodeFrom_encodeAny surrogates hcleans 0, hstop, hne⟩
  · exact .inl hfault

/-- The octets of a document that is no number are not read where they are cut short. -/
theorem readBytes_cut (hj : SelfDelimiting j) (hread : Readable maxDepth j)
    (hbytes : Utf8.encode (write j) = .ok bytes) (h : Cut p bytes) :
    ∃ fault, readBytes p = .error fault ∧ fault ≠ .document .tooDeep := by
  have hprefix : p <+: Utf8.encodeAny (write j) := ((Utf8.encode_eq_ok_iff _ _).mp hbytes).2 ▸ h.1
  -- The first two octets are ASCII and not zero, so a cut does not change which encoding is detected.
  rw [readBytes, ofDocument_of_isPrefix hj hread hprefix]
  rcases decode_cut hj hread hbytes h true with ⟨fault, hfault⟩ | ⟨s, stop, hs, hstop, hne⟩
  · exact ⟨.encoding fault, by rw [hfault], by simp⟩
  · refine ⟨.document (stop.inText s), ?_, ?_⟩
    · rw [hs]
      dsimp only
      rw [readUnmarked, hstop]
      rfl
    · cases stop with
      | tooDeep => exact absurd rfl hne
      | problem | oversized => simp [Stop.inText]

/-- The strict reader takes no document that is cut off. -/
theorem readStrict_cut (hj : SelfDelimiting j) (hread : Readable maxDepth j)
    (hbytes : Utf8.encode (write j) = .ok bytes) (h : Cut p bytes) : readStrict? p = none := by
  rw [readStrict?]
  rcases decode_cut hj hread hbytes h false with ⟨fault, hfault⟩ | ⟨s, stop, hs, hstop, _⟩
  · rw [hfault]
  · rw [hs]
    dsimp only
    rw [hstop]

end Octets

end CanonStore.Json
