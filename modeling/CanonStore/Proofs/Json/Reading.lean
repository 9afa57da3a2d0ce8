import CanonStore.Proofs.Json.Number
import CanonStore.Proofs.Json.Quoted

/-!
# Written documents read back

Reading takes exactly what compact writing gives. A document is `Readable` if it holds no infinite
number and none that is no number, no integer that is too long, and no more open brackets than the
reader takes. Main statement: `readRaw_compact`, the compact text of a readable document reads back to
that document. The section on values has one reading lemma for each form of a value; `value_compact`
puts them together by induction on the document.
-/

namespace CanonStore.Json

/-! ## What can be read back -/

mutual

/-- The document can be read back within `depth` open brackets. -/
def Readable (depth : Nat) : Json → Prop
  | .int n => isOversized n = false
  | .float x => x.isFinite
  | .list items => 0 < depth ∧ ItemsReadable (depth - 1) items
  | .object members => 0 < depth ∧ MembersReadable (depth - 1) members
  | _ => True

/-- All items can be read back. -/
def ItemsReadable (depth : Nat) : List Json → Prop
  | [] => True
  | j :: rest => Readable depth j ∧ ItemsReadable depth rest

/-- The values of all members can be read back. -/
def MembersReadable (depth : Nat) : List (Text × Json) → Prop
  | [] => True
  | (_, j) :: rest => Readable depth j ∧ MembersReadable depth rest

end

/-! ## Words -/

theorem dropPrefix?_of_ne {a c : CodePoint} (h : a ≠ c) (p s : Text) :
    Text.dropPrefix? (a :: p) (c :: s) = none := by
  rw [Text.dropPrefix?, if_neg h]

/-- No word can be taken for a number: it has no digit where a number would have its first one. -/
theorem not_isDigit_of_word : ∀ w ∈ words, ∀ a ∈ w.1.take 2, a.isDigit = false := by
  have hall : (words.all fun w => (w.1.take 2).all fun a => !a.isDigit) = true := rfl
  intro w hw a ha
  simpa using List.all_eq_true.mp (List.all_eq_true.mp hall w hw) a ha

theorem word_length : ∀ w ∈ words, 2 ≤ w.1.length := by decide +kernel

/-- No word starts with a digit. -/
theorem takeWord?_digit {c : CodePoint} (hc : c.isDigit) (s : Text) : takeWord? (c :: s) = none := by
  refine List.findSome?_eq_none_iff.mpr fun w hw => ?_
  have hdigit := not_isDigit_of_word w hw
  have hlen := word_length w hw
  match hword : w.1, hlen with
  | a :: _ :: _, _ =>
    have ha : a.isDigit = false := hdigit a (by simp [hword])
    have hne : a ≠ c := fun h => by simp [h, hc] at ha
    rw [dropPrefix?_of_ne hne]
    rfl

/-- No word starts with a sign and a digit. -/
theorem takeWord?_sign_digit (b : CodePoint) {c : CodePoint} (hc : c.isDigit) (s : Text) :
    takeWord? (b :: c :: s) = none := by
  refine List.findSome?_eq_none_iff.mpr fun w hw => ?_
  have hdigit := not_isDigit_of_word w hw
  have hlen := word_length w hw
  match hword : w.1, hlen with
  | a :: a' :: p, _ =>
    have ha : a'.isDigit = false := hdigit a' (by simp [hword])
    have hne : a' ≠ c := fun h => by simp [h, hc] at ha
    have hnone : Text.dropPrefix? (a :: a' :: p) (b :: c :: s) = none := by
      rw [Text.dropPrefix?]
      split
      · exact dropPrefix?_of_ne hne p s
      · rfl
    rw [hnone]
    rfl

/-! ## Scalars -/

/-- A word is read as what it stands for. -/
theorem scalar_word {s rest : Text} {j : Json} (h : takeWord? s = some (j, rest)) :
    Gives (scalar s) j rest := by
  have hlt := length_lt_of_takeWord h
  refine ⟨hlt, ?_⟩
  unfold scalar
  split
  · next w hw =>
    obtain rfl : w = (j, rest) := Option.some.inj (hw.symm.trans h)
    rfl
  · next hw => exact absurd (hw.symm.trans h) (by simp)

/-- What is no word is read as a number, with what the steps of `takeNumber` leave. -/
theorem scalar_number {s rest : Text} {j : Json} (hword : takeWord? s = none)
    (hwhole : (takeNumber (unsigned s)).whole ≠ []) (hrest : (takeNumber (unsigned s)).rest = rest)
    (hvalue : (takeNumber (unsigned s)).value (s.head? = some 0x2D) = .ok j) :
    Gives (scalar s) j rest := by
  subst hrest
  refine ⟨Nat.lt_of_lt_of_le (length_takeNumber_lt hwhole) (length_unsigned_le s), ?_⟩
  unfold scalar
  split
  · next hw => exact absurd (hw.symm.trans hword) (by simp)
  · dsimp only
    rw [dif_neg hwhole]
    split
    · next hstop => exact absurd (hstop.symm.trans hvalue) (by simp)
    · next hj =>
      obtain rfl := Except.ok.inj (hj.symm.trans hvalue)
      rfl

/-- A numeral starts with a digit. -/
theorem exists_digit_of_whole {s : Text} (h : (takeNumber s).whole ≠ []) :
    ∃ c t, s = c :: t ∧ c.isDigit := by
  cases s with
  | nil => exact absurd rfl h
  | cons c t =>
    refine ⟨c, t, rfl, ?_⟩
    change (takeWhole (c :: t)).1 ≠ [] at h
    by_cases hz : c = CodePoint.ofChar '0'
    · rw [hz]
      rfl
    · rw [takeWhole, if_neg hz, Binary64.takeDigits, List.takeWhile_cons] at h
      by_contra hc
      exact h (if_neg hc)

/-- A minus sign, or nothing. -/
def signText (negative : Bool) : Text := if negative then [0x2D] else []

/-- A numeral, perhaps after a minus sign, is read as what it denotes. -/
theorem scalar_signed (negative : Bool) {s rest : Text} {j : Json}
    (hwhole : (takeNumber s).whole ≠ []) (hrest : (takeNumber s).rest = rest)
    (hvalue : (takeNumber s).value negative = .ok j) :
    Gives (scalar (signText negative ++ s)) j rest := by
  obtain ⟨c, t, rfl, hc⟩ := exists_digit_of_whole hwhole
  cases negative with
  | true => exact scalar_number (takeWord?_sign_digit 0x2D hc t) hwhole hrest hvalue
  | false =>
    have hne : c ≠ 0x2D := by
      rintro rfl
      exact absurd hc (by decide)
    have hhead : ¬ (c :: t).head? = some (CodePoint.ofChar '-') := fun h => hne (Option.some.inj h)
    have hunsigned : unsigned (c :: t) = c :: t := if_neg hhead
    show Gives (scalar (c :: t)) j rest
    rw [← hunsigned] at hwhole hrest hvalue
    refine scalar_number (takeWord?_digit hc t) hwhole hrest ?_
    rwa [show decide ((c :: t).head? = some 0x2D) = false from decide_eq_false hhead]

/-! ## Values -/

section Value

variable {depth : Nat} {rest : Text}

/-- Whatever opens neither a text nor a container is read as a scalar. -/
theorem value_eq_scalar {c : CodePoint} (hq : c ≠ 0x22) (hl : c ≠ 0x5B) (ho : c ≠ 0x7B) (s : Text) :
    value depth (c :: s) = scalar (c :: s) := by
  have hq' : ¬ c = CodePoint.ofChar '"' := hq
  have hl' : ¬ c = CodePoint.ofChar '[' := hl
  have ho' : ¬ c = CodePoint.ofChar '{' := ho
  rw [value, if_neg hq', if_neg hl', if_neg ho']

theorem value_scalar {c : CodePoint} {s : Text} {j : Json} (hq : c ≠ 0x22) (hl : c ≠ 0x5B)
    (ho : c ≠ 0x7B) (h : Gives (scalar (c :: s)) j rest) : Gives (value depth (c :: s)) j rest := by
  rwa [value_eq_scalar hq hl ho]

/-- A number with or without a sign is read at any depth. -/
theorem value_signed (negative : Bool) {s : Text} {j : Json} (hwhole : (takeNumber s).whole ≠ [])
    (hrest : (takeNumber s).rest = rest) (hvalue : (takeNumber s).value negative = .ok j) :
    Gives (value depth (signText negative ++ s)) j rest := by
  have h := scalar_signed negative hwhole hrest hvalue
  obtain ⟨c, t, rfl, hc⟩ := exists_digit_of_whole hwhole
  cases negative with
  | true => exact value_scalar (by decide) (by decide) (by decide) h
  | false =>
    have hne : ∀ a : CodePoint, a.isDigit = false → c ≠ a := by
      rintro a ha rfl
      simp [hc] at ha
    exact value_scalar (hne _ (by decide)) (hne _ (by decide)) (hne _ (by decide)) h

/-- A quoted text is read back, whichever way its characters were escaped. -/
theorem value_quote {mode : Escaping} {t : Text} (h : Quotable mode t) :
    Gives (value depth (quote mode t ++ rest)) (.text t) rest := by
  rw [quote_append]
  obtain ⟨hlt, hbody⟩ := stringBody_escaped (0x22 :: (t.flatMap (escapeOne mode) ++ 0x22 :: rest)) h rest
  have hq : (0x22 : CodePoint) = CodePoint.ofChar '"' := rfl
  refine ⟨Nat.lt_succ_of_lt hlt, ?_⟩
  rw [value, if_pos hq]
  simp only [hbody]

theorem skipBlanks_cons {c : CodePoint} (h : isBlank c = false) (s : Text) :
    skipBlanks (c :: s) = c :: s :=
  List.dropWhile_cons_of_neg (by simp [h])

/-- Nothing is skipped where a value, a comma or a closing bracket stands. -/
theorem skipBlanks_of_stopsAt {s : Text} (h : StopsAt isBlank s) : skipBlanks s = s := by
  cases s with
  | nil => rfl
  | cons c s => exact skipBlanks_cons (h c rfl) s

end Value

/-! ## Lists and objects

One equation for each step that reads a part of a list or an object, in terms of the steps inside it. -/

/-- How a list is read, without the proofs that the reader comes to an end. -/
theorem outcome_value_list (depth : Nat) (s : Text) : outcome (value depth (0x5B :: s)) = (
    if depth = 0 then .error .tooDeep
    else match skipBlanks s with
      | [] => .error (.problem .valueExpected 0)
      | d :: after =>
        if d = ']' then .ok (.list [], after)
        else do
          let (js, r) ← outcome (items (depth - 1) (d :: after))
          .ok (.list js, r)) := by
  have hq : ¬ (0x5B : CodePoint) = CodePoint.ofChar '"' := by decide
  have hl : (0x5B : CodePoint) = CodePoint.ofChar '[' := rfl
  rw [value, if_neg hq, if_pos hl]
  -- In the order of the checks: the depth, the end of the text, the closing bracket, the items.
  split
  · rfl
  split
  · next d after h =>
    simp only [h]
    split
    · rfl
    cases items (depth - 1) (d :: after) <;> rfl
  · next h => simp only [h, outcome_error]

/-- How an object is read, without the proofs that the reader comes to an end. -/
theorem outcome_value_object (depth : Nat) (s : Text) : outcome (value depth (0x7B :: s)) = (
    if depth = 0 then .error .tooDeep
    else match skipBlanks s with
      | [] => .error (.problem .nameExpected 0)
      | d :: after =>
        if d = '}' then .ok (.object [], after)
        else do
          let (ms, r) ← outcome (members (depth - 1) (d :: after))
          .ok (.object ms, r)) := by
  have hq : ¬ (0x7B : CodePoint) = CodePoint.ofChar '"' := by decide
  have hl : ¬ (0x7B : CodePoint) = CodePoint.ofChar '[' := by decide
  have ho : (0x7B : CodePoint) = CodePoint.ofChar '{' := rfl
  rw [value, if_neg hq, if_neg hl, if_pos ho]
  split
  · rfl
  split
  · next d after h =>
    simp only [h]
    split
    · rfl
    cases members (depth - 1) (d :: after) <;> rfl
  · next h => simp only [h, outcome_error]

/-- How the items of a list are read: a value, and then a comma with more items or the bracket that closes. -/
theorem outcome_items (depth : Nat) (s : Text) : outcome (items depth s) = (do
    let (j, r) ← outcome (value depth s)
    match skipBlanks r with
    | [] => .error (.problem .commaExpected 0)
    | c :: after =>
      if c = ']' then .ok ([j], after)
      else if c ≠ ',' then .error (.problem .commaExpected (after.length + 1))
      else do
        let (js, r') ← outcome (items depth (skipBlanks after))
        .ok (j :: js, r')) := by
  rw [items]
  -- The proofs that the rest is shorter are forgotten stage by stage; each fault passes as it is.
  cases value depth s with
  | error stop => rfl
  | ok p =>
    obtain ⟨j, r⟩ := p
    simp only [outcome_ok, bind, Except.bind]
    split
    · next h => simp only [h, outcome_error]
    · next c after h =>
      simp only [h]
      split
      · rfl
      split
      · rfl
      cases items depth (skipBlanks after) <;> rfl

/-- How the members of an object are read: a name, a colon and a value, and then a comma or the closing brace. -/
theorem outcome_members (depth : Nat) (s : Text) : outcome (members depth (0x22 :: s)) = (do
    let (k, r) ← outcome (stringBody (0x22 :: s) s)
    match skipBlanks r with
    | [] => .error (.problem .colonExpected 0)
    | c :: after =>
      if c ≠ ':' then .error (.problem .colonExpected (after.length + 1))
      else do
        let (j, r') ← outcome (value depth (skipBlanks after))
        match skipBlanks r' with
        | [] => .error (.problem .commaExpected 0)
        | d :: after' =>
          if d = '}' then .ok ([(k, j)], after')
          else if d ≠ ',' then .error (.problem .commaExpected (after'.length + 1))
          else do
            let (ms, r'') ← outcome (members depth (skipBlanks after'))
            .ok ((k, j) :: ms, r'')) := by
  have hq : ¬ (0x22 : CodePoint) ≠ CodePoint.ofChar '"' := by decide
  rw [members, if_neg hq]
  -- As for items, with the key and the colon in front of the value.
  cases stringBody (0x22 :: s) s with
  | error stop => rfl
  | ok p =>
    obtain ⟨k, r⟩ := p
    simp only [outcome_ok, bind, Except.bind]
    split
    · next h => simp only [h, outcome_error]
    · next c after h =>
      simp only [h]
      split
      · rfl
      cases value depth (skipBlanks after) with
      | error stop => rfl
      | ok p =>
        obtain ⟨j, r'⟩ := p
        simp only [outcome_ok]
        split
        · next h => simp only [h, outcome_error]
        · next d after' h =>
          simp only [h]
          split
          · rfl
          split
          · rfl
          cases members depth (skipBlanks after') <;> rfl

/-- After a name that was quoted, the reader goes on with the colon. -/
theorem outcome_members_quote {mode : Escaping} {k : Text} (h : Quotable mode k) (depth : Nat) (s : Text) :
    outcome (members depth (quote mode k ++ s)) = (
    match skipBlanks s with
    | [] => .error (.problem .colonExpected 0)
    | c :: after =>
      if c ≠ ':' then .error (.problem .colonExpected (after.length + 1))
      else do
        let (j, r) ← outcome (value depth (skipBlanks after))
        match skipBlanks r with
        | [] => .error (.problem .commaExpected 0)
        | d :: after' =>
          if d = '}' then .ok ([(k, j)], after')
          else if d ≠ ',' then .error (.problem .commaExpected (after'.length + 1))
          else do
            let (ms, r') ← outcome (members depth (skipBlanks after'))
            .ok ((k, j) :: ms, r')) := by
  obtain ⟨hlt, hbody⟩ := stringBody_escaped (0x22 :: (k.flatMap (escapeOne mode) ++ 0x22 :: s)) h s
  rw [quote_append, outcome_members, hbody]
  rfl

section Parts

variable {depth : Nat} {s t r r' rest : Text} {j : Json} {mode : Escaping} {k : Text}

theorem value_list_nil (hd : 0 < depth) :
    Gives (value depth (0x5B :: 0x5D :: rest)) (.list []) rest := by
  have hskip : skipBlanks (0x5D :: rest) = 0x5D :: rest := skipBlanks_cons (by decide) rest
  rw [gives_iff, outcome_value_list, if_neg hd.ne', hskip]
  rfl

/-- A list that is not empty is read as its items are. -/
theorem value_list {js : List Json} (hd : 0 < depth) (hskip : skipBlanks t = s)
    (hclose : StopsAt (· = 0x5D) s) (hne : s ≠ []) (h : Gives (items (depth - 1) s) js rest) :
    Gives (value depth (0x5B :: t)) (.list js) rest := by
  obtain ⟨d, after, rfl⟩ := List.exists_cons_of_ne_nil hne
  have hd' : ¬ d = CodePoint.ofChar ']' := of_decide_eq_false (hclose d rfl)
  rw [gives_iff] at h ⊢
  rw [outcome_value_list, if_neg hd.ne', hskip]
  simp only [if_neg hd', h, bind, Except.bind]

theorem value_object_nil (hd : 0 < depth) :
    Gives (value depth (0x7B :: 0x7D :: rest)) (.object []) rest := by
  have hskip : skipBlanks (0x7D :: rest) = 0x7D :: rest := skipBlanks_cons (by decide) rest
  rw [gives_iff, outcome_value_object, if_neg hd.ne', hskip]
  rfl

/-- An object that is not empty is read as its members are. -/
theorem value_object {ms : List (Text × Json)} (hd : 0 < depth) (hskip : skipBlanks t = 0x22 :: s)
    (h : Gives (members (depth - 1) (0x22 :: s)) ms rest) :
    Gives (value depth (0x7B :: t)) (.object ms) rest := by
  have hd' : ¬ (0x22 : CodePoint) = CodePoint.ofChar '}' := by decide
  rw [gives_iff] at h ⊢
  rw [outcome_value_object, if_neg hd.ne', hskip]
  simp only [if_neg hd', h, bind, Except.bind]

/-- The last item is followed by the bracket that closes the list. -/
theorem items_last (h : Gives (value depth s) j r) (hr : skipBlanks r = 0x5D :: rest) :
    Gives (items depth s) [j] rest := by
  rw [gives_iff] at h ⊢
  simp only [outcome_items depth s, h, bind, Except.bind, hr]
  rfl

/-- Any other item is followed by a comma. -/
theorem items_cons {js : List Json} (h : Gives (value depth s) j r) (hr : skipBlanks r = 0x2C :: r')
    (hs' : Gives (items depth (skipBlanks r')) js rest) : Gives (items depth s) (j :: js) rest := by
  have hl : ¬ (0x2C : CodePoint) = CodePoint.ofChar ']' := by decide
  have hc : ¬ (0x2C : CodePoint) ≠ CodePoint.ofChar ',' := by decide
  rw [gives_iff] at h hs' ⊢
  simp only [outcome_items depth s, h, bind, Except.bind, hr, if_neg hl, if_neg hc, hs']

/-- A key and a colon, and the value after it. -/
theorem outcome_members_value (hk : Quotable mode k) (hskip : skipBlanks t = s) :
    outcome (members depth (quote mode k ++ 0x3A :: t)) = (do
      let (j, r) ← outcome (value depth s)
      match skipBlanks r with
      | [] => .error (.problem .commaExpected 0)
      | d :: after =>
        if d = '}' then .ok ([(k, j)], after)
        else if d ≠ ',' then .error (.problem .commaExpected (after.length + 1))
        else do
          let (ms, r') ← outcome (members depth (skipBlanks after))
          .ok ((k, j) :: ms, r')) := by
  have hcolon : skipBlanks (0x3A :: t) = 0x3A :: t := skipBlanks_cons (by decide) t
  have hc : ¬ (0x3A : CodePoint) ≠ CodePoint.ofChar ':' := by decide
  rw [outcome_members_quote hk, hcolon]
  simp only [if_neg hc]
  rw [hskip]

/-- The last member is followed by the brace that closes the object. -/
theorem members_last (hk : Quotable mode k) (hskip : skipBlanks t = s) (h : Gives (value depth s) j r)
    (hr : skipBlanks r = 0x7D :: rest) :
    Gives (members depth (quote mode k ++ 0x3A :: t)) [(k, j)] rest := by
  rw [gives_iff] at h ⊢
  simp only [outcome_members_value hk hskip, h, bind, Except.bind, hr]
  rfl

/-- Any other member is followed by a comma. -/
theorem members_cons {ms : List (Text × Json)} (hk : Quotable mode k) (hskip : skipBlanks t = s)
    (h : Gives (value depth s) j r) (hr : skipBlanks r = 0x2C :: r')
    (hs' : Gives (members depth (skipBlanks r')) ms rest) :
    Gives (members depth (quote mode k ++ 0x3A :: t)) ((k, j) :: ms) rest := by
  have hb : ¬ (0x2C : CodePoint) = CodePoint.ofChar '}' := by decide
  have hc : ¬ (0x2C : CodePoint) ≠ CodePoint.ofChar ',' := by decide
  rw [gives_iff] at h hs' ⊢
  simp only [outcome_members_value hk hskip, h, bind, Except.bind, hr, if_neg hb, if_neg hc, hs']

end Parts

/-! ## Compact texts -/

theorem compact_list (js : List Json) : compact (.list js) = 0x5B :: (compactItems js ++ [0x5D]) := by
  rw [compact]
  rfl

theorem compact_object (ms : List (Text × Json)) :
    compact (.object ms) = 0x7B :: (compactMembers ms ++ [0x7D]) := by
  rw [compact]
  rfl

theorem compactItems_cons (j : Json) {js : List Json} (h : js ≠ []) :
    compactItems (j :: js) = compact j ++ 0x2C :: compactItems js := by
  obtain ⟨j', js, rfl⟩ := List.exists_cons_of_ne_nil h
  rw [compactItems, List.append_assoc]
  · rfl
  · simp

theorem compactMembers_singleton (k : Text) (j : Json) :
    compactMembers [(k, j)] = quote .fewest k ++ 0x3A :: compact j := by
  rw [compactMembers, List.append_assoc]
  rfl

theorem compactMembers_cons (k : Text) (j : Json) {ms : List (Text × Json)} (h : ms ≠ []) :
    compactMembers ((k, j) :: ms)
      = quote .fewest k ++ 0x3A :: (compact j ++ 0x2C :: compactMembers ms) := by
  obtain ⟨m, ms, rfl⟩ := List.exists_cons_of_ne_nil h
  rw [compactMembers]
  · simp only [List.append_assoc]
    rfl
  · simp

/-- Members start with the quotation mark of the first name. -/
theorem compactMembers_start {ms : List (Text × Json)} (h : ms ≠ []) :
    ∃ s, compactMembers ms = 0x22 :: s := by
  obtain ⟨⟨k, j⟩, ms, rfl⟩ := List.exists_cons_of_ne_nil h
  cases ms with
  | nil => exact ⟨_, by rw [compactMembers_singleton, quote_append]⟩
  | cons m ms => exact ⟨_, by rw [compactMembers_cons k j (List.cons_ne_nil m ms), quote_append]⟩

/-- How the text of a value starts: with a code point of ASCII that shows and closes no list. -/
structure StartsValue (c : CodePoint) : Prop where
  isAscii : c.isAscii
  shows : 0x20 < c.val
  ne_close : c ≠ 0x5D

theorem not_isBlank_of_lt {c : CodePoint} (h : 0x20 < c.val) : isBlank c = false := by
  have hne : ∀ a : CodePoint, a.val ≤ 0x20 → ¬ c = a := by
    rintro a ha rfl
    exact absurd ha (Nat.not_le_of_lt h)
  simp only [isBlank, decide_eq_false (hne (CodePoint.ofChar ' ') (by decide)),
    decide_eq_false (hne (CodePoint.ofChar '\t') (by decide)),
    decide_eq_false (hne (CodePoint.ofChar '\n') (by decide)),
    decide_eq_false (hne (CodePoint.ofChar '\r') (by decide)), Bool.or_false]

/-- No value starts with white space, so the reader skips none of it. -/
theorem StartsValue.not_isBlank {c : CodePoint} (h : StartsValue c) : isBlank c = false :=
  not_isBlank_of_lt h.shows

theorem startsValue_of_isDigit {c : CodePoint} (h : c.isDigit) : StartsValue c := by
  have hrange : 0x30 ≤ c.val ∧ c.val ≤ 0x39 := by
    rwa [CodePoint.isDigit, Bool.and_eq_true, decide_eq_true_eq, decide_eq_true_eq] at h
  refine ⟨?_, by omega, ?_⟩
  · rw [CodePoint.isAscii, decide_eq_true_eq]
    omega
  · rintro rfl
    exact absurd hrange.2 (by decide)

/-- A numeral after a sign starts a value. -/
theorem startsValue_signed (negative : Bool) {s : Text} (h : (takeNumber s).whole ≠ []) :
    ∃ c t, signText negative ++ s = c :: t ∧ StartsValue c := by
  obtain ⟨c, t, rfl, hc⟩ := exists_digit_of_whole h
  cases negative with
  | true => exact ⟨0x2D, _, rfl, by decide, by decide, by decide⟩
  | false => exact ⟨c, t, rfl, startsValue_of_isDigit hc⟩

theorem ofInt_eq (n : Int) : Numeral.ofInt n = signText (n < 0) ++ Numeral.ofNat n.natAbs := by
  unfold Numeral.ofInt signText
  by_cases h : n < 0 <;> simp [h]

theorem exists_of_isFinite {x : Binary64} (h : x.isFinite) :
    ∃ negative place, x = .finite negative place := by
  cases x with
  | finite negative place => exact ⟨negative, place, rfl⟩
  | infinite _ => exact absurd h Bool.false_ne_true
  | nan => exact absurd h Bool.false_ne_true

theorem jsonText_finite (negative : Bool) (place : Fin magnitudeCount) :
    (Binary64.finite negative place).jsonText = signText negative ++ Binary64.magnitudeText place := by
  cases negative <;> rfl

/-- A numeral starts with digits, so it is a number to the reader. -/
theorem whole_ofNat_ne_nil (n : Nat) {rest : Text} (h : Closes rest) :
    (takeNumber (Numeral.ofNat n ++ rest)).whole ≠ [] := by
  rw [takeNumber_ofNat n h]
  exact Numeral.ofNat_ne_nil n

/-- A written value shows by its first character what it is. -/
theorem compact_start {depth : Nat} (j : Json) (h : Readable depth j) :
    ∃ c t, compact j = c :: t ∧ StartsValue c := by
  cases j with
  | null => exact ⟨0x6E, _, rfl, by decide, by decide, by decide⟩
  | bool b =>
    cases b with
    | true => exact ⟨0x74, _, rfl, by decide, by decide, by decide⟩
    | false => exact ⟨0x66, _, rfl, by decide, by decide, by decide⟩
  | int n =>
    have hwhole := whole_ofNat_ne_nil n.natAbs closes_nil
    rw [List.append_nil] at hwhole
    -- The sign of a number, or its first digit.
    have hstart := startsValue_signed (n < 0) hwhole
    rwa [← ofInt_eq] at hstart
  | float x =>
    obtain ⟨negative, place, rfl⟩ := exists_of_isFinite h
    have hwhole := (readsFloat_magnitudeText place.isLt closes_nil).whole_ne_nil
    rw [List.append_nil] at hwhole
    have hstart := startsValue_signed negative hwhole
    rwa [← jsonText_finite] at hstart
  | text t => exact ⟨0x22, _, rfl, by decide, by decide, by decide⟩
  | list js => exact ⟨0x5B, _, compact_list js, by decide, by decide, by decide⟩
  | object ms => exact ⟨0x7B, _, compact_object ms, by decide, by decide, by decide⟩

/-- Before a written value there is no white space to skip. -/
theorem Readable.stopsAt_isBlank {depth : Nat} {j : Json} (h : Readable depth j) (rest : Text) :
    StopsAt isBlank (compact j ++ rest) := by
  obtain ⟨c, t, hj, hc⟩ := compact_start j h
  rw [hj, List.cons_append]
  exact stopsAt_cons hc.not_isBlank

theorem ItemsReadable.start {depth : Nat} {js : List Json} (h : ItemsReadable depth js) (hne : js ≠ []) :
    ∃ c t, compactItems js = c :: t ∧ StartsValue c := by
  obtain ⟨j, js, rfl⟩ := List.exists_cons_of_ne_nil hne
  obtain ⟨c, t, hj, hc⟩ := compact_start j h.1
  cases js with
  | nil => exact ⟨c, t, by rw [compactItems, hj], hc⟩
  | cons j' js =>
    refine ⟨c, t ++ 0x2C :: compactItems (j' :: js), ?_, hc⟩
    rw [compactItems_cons j (List.cons_ne_nil j' js), hj, List.cons_append]

theorem stopsAt_isBlank_members {ms : List (Text × Json)} (h : ms ≠ []) (rest : Text) :
    StopsAt isBlank (compactMembers ms ++ rest) := by
  obtain ⟨s, hs⟩ := compactMembers_start h
  rw [hs, List.cons_append]
  exact stopsAt_cons (by decide)

/-! ## Reading a document back -/

/-- The smallest integer that cannot be written. -/
theorem isOversized_pow : isOversized (10 ^ maxDigits : Nat) := by
  simp only [isOversized, Int.natAbs_natCast, Nat.pow_eq, le_refl, decide_true]

/-- An integer has the right size if its digits are not too many. -/
theorem isOversized_eq_false_iff (n : Int) :
    isOversized n = false ↔ Numeral.length n.natAbs ≤ maxDigits := by
  rw [isOversized, Nat.pow_eq, decide_eq_false_iff_not, Nat.not_le, Numeral.length_le_iff (by decide)]

theorem signed_natAbs (n : Int) : (if n < 0 then -(n.natAbs : Int) else n.natAbs) = n := by
  split <;> omega

/-- A written integer is read back. -/
theorem value_ofInt {depth : Nat} {n : Int} (h : isOversized n = false) {rest : Text}
    (hr : Closes rest) : Gives (value depth (Numeral.ofInt n ++ rest)) (.int n) rest := by
  have hlen : ¬ maxDigits < (Numeral.ofNat n.natAbs).length := by
    rw [Numeral.length_ofNat, Nat.not_lt]
    exact (isOversized_eq_false_iff n).mp h
  have hnumber := takeNumber_ofNat n.natAbs hr
  rw [ofInt_eq, List.append_assoc]
  refine value_signed _ (whole_ofNat_ne_nil _ hr) (by rw [hnumber]) ?_
  rw [hnumber, Numeric.value]
  simp only [if_neg hlen, Numeral.toNat_ofNat, decide_eq_true_eq, signed_natAbs]

/-- A written float is read back. -/
theorem value_jsonText {depth : Nat} {x : Binary64} (h : x.isFinite) {rest : Text} (hr : Closes rest) :
    Gives (value depth (x.jsonText ++ rest)) (.float x) rest := by
  obtain ⟨negative, place, rfl⟩ := exists_of_isFinite h
  have hread := readsFloat_magnitudeText place.isLt hr
  rw [jsonText_finite, List.append_assoc]
  exact value_signed negative hread.whole_ne_nil hread.rest_eq (hread.value_eq negative)

mutual

/-- The compact text of a document is read back whole, and what closes it is left. -/
theorem value_compact : ∀ (j : Json) {depth : Nat}, Readable depth j → ∀ {rest : Text}, Closes rest →
    Gives (value depth (compact j ++ rest)) j rest
  | .null, _, _, _, _ => value_scalar (by decide) (by decide) (by decide) (scalar_word rfl)
  | .bool true, _, _, _, _ => value_scalar (by decide) (by decide) (by decide) (scalar_word rfl)
  | .bool false, _, _, _, _ => value_scalar (by decide) (by decide) (by decide) (scalar_word rfl)
  | .int _, _, h, _, hr => value_ofInt h hr
  | .float _, _, h, _, hr => value_jsonText h hr
  | .text t, _, _, _, _ => value_quote (quotable_fewest t)
  | .list js, _, h, rest, _ => by
    -- An empty list closes at once; any other one goes on with the first item, which is no bracket.
    rw [compact_list, List.cons_append, List.append_assoc, List.singleton_append]
    by_cases hne : js = []
    · rw [hne]
      exact value_list_nil h.1
    · obtain ⟨c, t, hstart, hc⟩ := h.2.start hne
      have hitems := items_compact js h.2 hne rest
      refine value_list h.1 ?_ ?_ ?_ hitems <;> rw [hstart, List.cons_append]
      · exact skipBlanks_cons hc.not_isBlank _
      · exact stopsAt_cons (decide_eq_false hc.ne_close)
      · exact List.cons_ne_nil _ _
  | .object ms, _, h, rest, _ => by
    rw [compact_object, List.cons_append, List.append_assoc, List.singleton_append]
    by_cases hne : ms = []
    · rw [hne]
      exact value_object_nil h.1
    · obtain ⟨s, hs⟩ := compactMembers_start hne
      have hmembers := members_compact ms h.2 hne rest
      rw [hs, List.cons_append] at hmembers ⊢
      exact value_object h.1 (skipBlanks_cons (by decide) _) hmembers

/-- The texts of items are read back up to and with the closing bracket. -/
theorem items_compact : ∀ (js : List Json) {depth : Nat}, ItemsReadable depth js → js ≠ [] →
    ∀ rest, Gives (items depth (compactItems js ++ 0x5D :: rest)) js rest
  | [], _, _, hne, _ => absurd rfl hne
  | j :: js, _, h, _, rest => by
    by_cases hne : js = []
    · rw [hne]
      exact items_last (value_compact j h.1 (closes_cons (by decide))) (skipBlanks_cons (by decide) rest)
    · obtain ⟨c, t, hstart, hc⟩ := h.2.start hne
      have hskip : skipBlanks (compactItems js ++ 0x5D :: rest) = compactItems js ++ 0x5D :: rest := by
        rw [hstart, List.cons_append]
        exact skipBlanks_cons hc.not_isBlank _
      have hitems := items_compact js h.2 hne rest
      rw [← hskip] at hitems
      rw [compactItems_cons j hne, List.append_assoc, List.cons_append]
      exact items_cons (value_compact j h.1 (closes_cons (by decide))) (skipBlanks_cons (by decide) _) hitems

/-- The texts of members are read back up to and with the closing brace. -/
theorem members_compact : ∀ (ms : List (Text × Json)) {depth : Nat}, MembersReadable depth ms →
    ms ≠ [] → ∀ rest, Gives (members depth (compactMembers ms ++ 0x7D :: rest)) ms rest
  | [], _, _, hne, _ => absurd rfl hne
  | (k, j) :: ms, _, h, _, rest => by
    have hk := quotable_fewest k
    by_cases hne : ms = []
    · rw [hne, compactMembers_singleton, List.append_assoc, List.cons_append]
      exact members_last hk (skipBlanks_of_stopsAt (h.1.stopsAt_isBlank _))
        (value_compact j h.1 (closes_cons (by decide))) (skipBlanks_cons (by decide) rest)
    · -- What follows the value is the comma before the other members.
      have hcloses : Closes (0x2C :: (compactMembers ms ++ 0x7D :: rest)) := closes_cons (by decide)
      have hskip := skipBlanks_of_stopsAt (h.1.stopsAt_isBlank (0x2C :: (compactMembers ms ++ 0x7D :: rest)))
      have hvalue := value_compact j h.1 hcloses
      have hmembers := members_compact ms h.2 hne rest
      rw [← skipBlanks_of_stopsAt (stopsAt_isBlank_members hne (0x7D :: rest))] at hmembers
      rw [compactMembers_cons k j hne, List.append_assoc, List.cons_append, List.append_assoc,
        List.cons_append]
      exact members_cons hk hskip hvalue (skipBlanks_cons (by decide) _) hmembers

end

/-- A text that is read to its end, but for blanks, is read as a whole. -/
theorem readRaw_of_value {s r : Text} {j : Json} (hblank : StopsAt isBlank s)
    (h : Gives (value maxDepth s) j r) (hr : skipBlanks r = []) : readRaw s = .ok j := by
  rw [← skipBlanks_of_stopsAt hblank] at h
  obtain ⟨hlt, hvalue⟩ := h
  rw [readRaw, hvalue]
  simp only [hr]

/-- The compact text of a readable document reads back to that document. -/
theorem readRaw_compact {j : Json} (h : Readable maxDepth j) : readRaw (compact j) = .ok j := by
  have hvalue := value_compact j h closes_nil
  have hblank := h.stopsAt_isBlank []
  rw [List.append_nil] at hvalue hblank
  exact readRaw_of_value hblank hvalue rfl

end CanonStore.Json
