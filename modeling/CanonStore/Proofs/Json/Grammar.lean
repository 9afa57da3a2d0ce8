import CanonStore.Proofs.Json.RoundTrip
import CanonStore.Proofs.Text.Pieces

/-!
# The grammar of documents

Which texts are documents of strict JSON is said here by the form of the text alone, with neither a
reader nor a writer. `IsDocument` leaves two things to a `Layout`: what may stand between the tokens,
and which key may come before which other one in an object. Under `Layout.free` that is any run of
blanks and any keys, which is the grammar of the format; under `Layout.canonical` nothing stands
between tokens and keys ascend strictly. Main statement: `isDocument_write`, the written form of a
document is canonical.
-/

namespace CanonStore.Json

/-! ## Numbers -/

/-- Decimal digits, at least one. -/
def IsDigits (s : Text) : Prop := s ≠ [] ∧ ∀ c ∈ s, c.isDigit

/-- A whole part: a zero alone, or digits that do not start with zero. -/
def IsWhole (s : Text) : Prop := IsDigits s ∧ (s.head? = some 0x30 → s = [0x30])

/-- A fraction, or nothing. -/
inductive IsFraction : Text → Prop
  | none : IsFraction []
  | some {ds : Text} (hds : IsDigits ds) : IsFraction (0x2E :: ds)

/-- An exponent, or nothing. -/
inductive IsExponent : Text → Prop
  | none : IsExponent []
  | some {e : CodePoint} {sign ds : Text} (he : e = 0x65 ∨ e = 0x45)
      (hsign : sign ∈ [([] : Text), [0x2B], [0x2D]]) (hds : IsDigits ds) : IsExponent (e :: (sign ++ ds))

/-- A number without a sign. -/
inductive IsMagnitude : Text → Prop
  | mk {whole fraction exponent : Text} (hw : IsWhole whole) (hf : IsFraction fraction)
      (hx : IsExponent exponent) : IsMagnitude (whole ++ (fraction ++ exponent))

/-- A number: digits, perhaps after a minus sign, with a fraction and an exponent if need be. -/
inductive IsNumber : Text → Prop
  | mk (negative : Bool) {s : Text} (h : IsMagnitude s) : IsNumber (signText negative ++ s)

/-- The marks in numbers besides digits: signs, a point, and the letters of exponents. -/
def numberMarks : Text := [0x2B, 0x2D, 0x2E, 0x45, 0x65]

/-- A number is made of digits and the marks of numbers. -/
theorem IsNumber.forall_mem {P : CodePoint → Prop} (hdigit : ∀ c : CodePoint, c.isDigit → P c)
    (hmark : ∀ c ∈ numberMarks, P c) {s : Text} (h : IsNumber s) : ∀ c ∈ s, P c := by
  obtain ⟨hplus, hminus, hpoint, hupper, hlower, _⟩ := by
    simpa only [numberMarks, List.forall_mem_cons] using hmark
  have hdigits : ∀ {ds : Text}, IsDigits ds → ∀ c ∈ ds, P c := fun hds c hc => hdigit c (hds.2 c hc)
  obtain ⟨negative, hmagnitude⟩ := h
  obtain ⟨hwhole, hfraction, hexponent⟩ := hmagnitude
  simp only [List.forall_mem_append]
  -- Sign, whole part, fraction, exponent: what each of them is made of.
  refine ⟨?_, hdigits hwhole.1, ?_, ?_⟩
  · cases negative with
    | true => exact List.forall_mem_singleton.mpr hminus
    | false => exact List.forall_mem_nil _
  · cases hfraction with
    | none => exact List.forall_mem_nil _
    | some hds => exact List.forall_mem_cons.mpr ⟨hpoint, hdigits hds⟩
  · cases hexponent with
    | none => exact List.forall_mem_nil _
    | some he hsign hds =>
      refine List.forall_mem_cons.mpr ⟨?_, List.forall_mem_append.mpr ⟨?_, hdigits hds⟩⟩
      · rcases he with rfl | rfl
        · exact hlower
        · exact hupper
      · simp only [List.mem_cons, List.not_mem_nil, or_false] at hsign
        rcases hsign with rfl | rfl | rfl
        · exact List.forall_mem_nil _
        · exact List.forall_mem_singleton.mpr hplus
        · exact List.forall_mem_singleton.mpr hminus

/-! ## Literals -/

/-- The letters of escapes, each with the code point that it stands for. -/
def letterEscapes : List (CodePoint × CodePoint) :=
  [(0x22, 0x22), (0x5C, 0x5C), (0x2F, 0x2F), (0x62, 0x08), (0x66, 0x0C), (0x6E, 0x0A), (0x72, 0x0D),
   (0x74, 0x09)]

/-- Four hexadecimal digits and the number that they denote. -/
inductive IsUnit : Nat → Text → Prop
  | mk {a b c d : CodePoint} {i j k l : Nat} (ha : a.hexValue? = some i) (hb : b.hexValue? = some j)
      (hc : c.hexValue? = some k) (hd : d.hexValue? = some l) :
      IsUnit (((i * 16 + j) * 16 + k) * 16 + l) [a, b, c, d]

/-- The second text stands between the quotes of a literal for the first one: quotes, backslashes and
controls only behind a backslash. An escape by number stands for a code point that is no surrogate, or
together with a second one for the code point of a surrogate pair. -/
inductive IsBody : Text → Text → Prop
  | nil : IsBody [] []
  | plain {c : CodePoint} {t s : Text} (hc : 0x20 ≤ c.val) (hq : c ≠ 0x22) (hb : c ≠ 0x5C)
      (h : IsBody t s) : IsBody (c :: t) (c :: s)
  | letter {e c : CodePoint} {t s : Text} (he : (e, c) ∈ letterEscapes) (h : IsBody t s) :
      IsBody (c :: t) (0x5C :: e :: s)
  | unit {n : Nat} {ds t s : Text} (hds : IsUnit n ds) (hn : (CodePoint.ofNat n).isSurrogate = false)
      (h : IsBody t s) : IsBody (CodePoint.ofNat n :: t) (0x5C :: 0x75 :: (ds ++ s))
  | pair {m n : Nat} {ds es t s : Text} (hds : IsUnit m ds) (hm : (CodePoint.ofNat m).isHighSurrogate)
      (hes : IsUnit n es) (hn : (CodePoint.ofNat n).isLowSurrogate) (h : IsBody t s) :
      IsBody (CodePoint.ofSurrogates (CodePoint.ofNat m) (CodePoint.ofNat n) :: t)
        (0x5C :: 0x75 :: (ds ++ 0x5C :: 0x75 :: (es ++ s)))

/-- The second text is a literal of the first one. -/
def IsLiteral (t s : Text) : Prop := ∃ body, IsBody t body ∧ s = 0x22 :: (body ++ [0x22])

/-! ## Documents -/

/-- What the grammar leaves open. -/
structure Layout where
  /-- What may stand before and after a token. -/
  gap : Text → Prop
  /-- The first key may stand anywhere before the second one in an object. -/
  before : Text → Text → Prop

namespace Layout

/-- Any blanks between tokens, and keys as they come. -/
def free : Layout := ⟨fun s => ∀ c ∈ s, isBlank c, fun _ _ => True⟩

/-- Nothing between tokens, and keys that ascend strictly by their code points. -/
def canonical : Layout := ⟨fun s => s = [], fun k l => k < l⟩

end Layout

/-- The words of the format. -/
def plainWords : List Text := ["null", "true", "false"]

/-- A member of an object as it is spelled. -/
structure Spelling where
  key : Text
  /-- The literal of the key, with what stands around it. -/
  name : Text
  value : Text

def Spelling.text (m : Spelling) : Text := m.name ++ 0x3A :: m.value

/-- The second text is a literal of the first one with gaps around it. -/
def IsName (l : Layout) (key s : Text) : Prop :=
  ∃ left literal right, l.gap left ∧ IsLiteral key literal ∧ l.gap right ∧ s = left ++ (literal ++ right)

/-- The text is a document of strict JSON in the given layout. -/
inductive IsDocument (l : Layout) : Text → Prop
  | word {s : Text} (h : s ∈ plainWords) : IsDocument l s
  | number {s : Text} (h : IsNumber s) : IsDocument l s
  | text {t s : Text} (h : IsLiteral t s) : IsDocument l s
  | emptyList {gap : Text} (h : l.gap gap) : IsDocument l (0x5B :: (gap ++ [0x5D]))
  | list {parts : List Text} (hne : parts ≠ []) (hparts : ∀ s ∈ parts, IsDocument l s) :
      IsDocument l (0x5B :: (Text.joinWith "," parts ++ [0x5D]))
  | emptyObject {gap : Text} (h : l.gap gap) : IsDocument l (0x7B :: (gap ++ [0x7D]))
  | object {members : List Spelling} (hne : members ≠ [])
      (hnames : ∀ m ∈ members, IsName l m.key m.name)
      (hvalues : ∀ m ∈ members, IsDocument l m.value)
      (hkeys : (members.map Spelling.key).Pairwise l.before) :
      IsDocument l (0x7B :: (Text.joinWith "," (members.map Spelling.text) ++ [0x7D]))
  | spaced {left s right : Text} (hleft : l.gap left) (h : IsDocument l s) (hright : l.gap right) :
      IsDocument l (left ++ (s ++ right))

/-- A document stays one where more gaps and more orders of keys pass. -/
theorem IsDocument.mono {l m : Layout} (hgap : ∀ s, l.gap s → m.gap s)
    (hbefore : ∀ j k, l.before j k → m.before j k) {s : Text} (h : IsDocument l s) : IsDocument m s := by
  induction h with
  | word h => exact .word h
  | number h => exact .number h
  | text h => exact .text h
  | emptyList h => exact .emptyList (hgap _ h)
  | list hne _ ih => exact .list hne ih
  | emptyObject h => exact .emptyObject (hgap _ h)
  | object hne hnames _ hkeys ih =>
    refine .object hne ?_ ih (hkeys.imp (hbefore _ _))
    intro m hm
    obtain ⟨left, literal, right, hleft, hliteral, hright, hname⟩ := hnames m hm
    exact ⟨left, literal, right, hgap left hleft, hliteral, hgap right hright, hname⟩
  | spaced hleft _ hright ih => exact .spaced (hgap _ hleft) ih (hgap _ hright)

/-- A canonical document is a document. -/
theorem IsDocument.free {s : Text} (h : IsDocument .canonical s) : IsDocument .free s := by
  refine h.mono ?_ fun _ _ _ => trivial
  rintro _ rfl
  exact List.forall_mem_nil _

/-! ## Numbers are split off whole -/

section Splitting

open Binary64 (takeDigits takeSign)

theorem isDigits_takeDigits {s : Text} (h : (takeDigits s).1 ≠ []) : IsDigits (takeDigits s).1 :=
  ⟨h, fun _ hc => List.mem_takeWhile_imp hc⟩

/-- Taking digits loses none. -/
theorem takeDigits_append_eq (s : Text) : (takeDigits s).1 ++ (takeDigits s).2 = s :=
  List.takeWhile_append_dropWhile

/-- The whole part of a numeral is split off as one. -/
theorem takeWhole_spec {s : Text} (h : (takeWhole s).1 ≠ []) :
    IsWhole (takeWhole s).1 ∧ (takeWhole s).1 ++ (takeWhole s).2 = s := by
  cases s with
  | nil => exact absurd rfl h
  | cons c rest =>
    by_cases hz : c = CodePoint.ofChar '0'
    · rw [takeWhole, if_pos hz, hz]
      exact ⟨⟨⟨List.cons_ne_nil _ _, isDigit_zero⟩, fun _ => rfl⟩, rfl⟩
    · rw [takeWhole, if_neg hz] at h ⊢
      have happend := takeDigits_append_eq (c :: rest)
      refine ⟨⟨isDigits_takeDigits h, fun hhead => ?_⟩, happend⟩
      -- The digits start with the first code point of the text, and that is no zero.
      have hc := congrArg List.head? happend
      rw [List.head?_append_of_ne_nil _ h, List.head?_cons, hhead] at hc
      exact absurd (Option.some.inj hc).symm hz

/-- Whatever is taken as a fraction is one. -/
theorem takeFraction_spec (s : Text) : ∃ t, IsFraction t ∧ s = t ++ (takeFraction s).2 := by
  cases s with
  | nil => exact ⟨[], .none, rfl⟩
  | cons c rest =>
    simp only [takeFraction]
    split
    · next h =>
      simp only [Bool.and_eq_true, decide_eq_true_eq, Bool.not_eq_true', List.isEmpty_eq_false_iff] at h
      refine ⟨c :: (takeDigits rest).1, ?_, congrArg (c :: ·) (takeDigits_append_eq rest).symm⟩
      rw [h.1]
      exact .some (isDigits_takeDigits h.2)
    · exact ⟨[], .none, rfl⟩

theorem takeSign_spec (s : Text) :
    ∃ sign ∈ [([] : Text), [0x2B], [0x2D]], s = sign ++ (takeSign s).2 := by
  cases s with
  | nil => exact ⟨[], by decide, rfl⟩
  | cons c rest =>
    rw [takeSign]
    split
    · next h => exact ⟨[0x2D], by decide, congrArg (· :: rest) h⟩
    · split
      · next h => exact ⟨[0x2B], by decide, congrArg (· :: rest) h⟩
      · exact ⟨[], by decide, rfl⟩

/-- Whatever is taken as an exponent is one. -/
theorem takeExponent_spec (s : Text) : ∃ t, IsExponent t ∧ s = t ++ (takeExponent s).2 := by
  cases s with
  | nil => exact ⟨[], .none, rfl⟩
  | cons c rest =>
    simp only [takeExponent]
    split
    · next h =>
      simp only [Bool.and_eq_true, Bool.or_eq_true, decide_eq_true_eq, Bool.not_eq_true',
        List.isEmpty_eq_false_iff] at h
      obtain ⟨sign, hsign, hrest⟩ := takeSign_spec rest
      refine ⟨c :: (sign ++ (takeDigits (takeSign rest).2).1), .some h.1 hsign (isDigits_takeDigits h.2), ?_⟩
      rw [List.cons_append, List.append_assoc, takeDigits_append_eq, ← hrest]
    · exact ⟨[], .none, rfl⟩

/-- What is split off a text as a numeral is a number without a sign. -/
theorem takeNumber_spec {s : Text} (h : (takeNumber s).whole ≠ []) :
    ∃ t, IsMagnitude t ∧ s = t ++ (takeNumber s).rest := by
  obtain ⟨hwhole, happend⟩ := takeWhole_spec h
  obtain ⟨fraction, hfraction, hf⟩ := takeFraction_spec (takeWhole s).2
  obtain ⟨exponent, hexponent, hx⟩ := takeExponent_spec (takeFraction (takeWhole s).2).2
  refine ⟨_, .mk hwhole hfraction hexponent, ?_⟩
  calc s = (takeWhole s).1 ++ (takeWhole s).2 := happend.symm
    _ = (takeWhole s).1 ++ (fraction ++ (exponent ++ (takeNumber s).rest)) := by rw [hf, hx]; rfl
    _ = (takeWhole s).1 ++ (fraction ++ exponent) ++ (takeNumber s).rest := by
      rw [List.append_assoc, List.append_assoc]

end Splitting

/-- A text that is split off whole is a number without a sign. -/
theorem isMagnitude_of_rest {s : Text} (h : (takeNumber s).whole ≠ []) (hrest : (takeNumber s).rest = []) :
    IsMagnitude s := by
  obtain ⟨t, ht, hs⟩ := takeNumber_spec h
  rw [hrest, List.append_nil] at hs
  rwa [hs]

/-! ## What is written -/

/-- An integer is written as a number. -/
theorem isNumber_ofInt (n : Int) : IsNumber (Numeral.ofInt n) := by
  have hnumber := takeNumber_ofNat n.natAbs closes_nil
  have hwhole := whole_ofNat_ne_nil n.natAbs closes_nil
  rw [List.append_nil] at hnumber hwhole
  rw [ofInt_eq]
  exact .mk _ (isMagnitude_of_rest hwhole (by rw [hnumber]))

/-- A finite float is written as a number. -/
theorem isNumber_jsonText {x : Binary64} (h : x.isFinite) : IsNumber x.jsonText := by
  obtain ⟨negative, place, rfl⟩ := exists_of_isFinite h
  have hread := readsFloat_magnitudeText place.isLt closes_nil
  rw [List.append_nil] at hread
  rw [jsonText_finite]
  exact .mk negative (isMagnitude_of_rest hread.whole_ne_nil hread.rest_eq)

theorem mem_letterEscapes {e c : CodePoint} (h : escapeValue? e = some c) : (e, c) ∈ letterEscapes := by
  unfold escapeValue? at h
  repeat' split at h
  all_goals cases h
  all_goals
    subst e
    decide

theorem isUnit_hexPadded {n : Nat} (h : n < 0x10000) : IsUnit n (Numeral.hexPadded 4 n) := by
  have hv := CodePoint.hexValue?_ofHexValue
  have hn : ((n / 0x1000 * 16 + n / 0x100 % 0x10) * 16 + n / 0x10 % 0x10) * 16 + n % 0x10 = n := by omega
  have hunit := IsUnit.mk (hv (n / 0x1000) (by omega)) (hv (n / 0x100 % 0x10) (by omega))
    (hv (n / 0x10 % 0x10) (by omega)) (hv (n % 0x10) (by omega))
  rwa [hn, ← Numeral.hexPadded_four h] at hunit

/-- The escaped form of a text is the body of a literal for it. -/
theorem isBody_escaped (t : Text) : IsBody t (t.flatMap (escapeOne .fewest)) := by
  induction t with
  | nil => exact .nil
  | cons c t ih =>
    rw [List.flatMap_cons]
    -- Escaped by a letter, escaped by number, or standing for itself.
    rcases escapeOne_cases c with ⟨e, _, hv, he⟩ | ⟨hc, he⟩ | ⟨hq, hb, hc, he⟩
    · rw [he]
      exact .letter (mem_letterEscapes hv) ih
    · -- Only control characters are escaped by number here, so there is no half of a pair to be joined.
      have hval : CodePoint.ofNat c.val = c := Fin.ext (CodePoint.val_ofNat c.isLt)
      have hs : (CodePoint.ofNat c.val).isSurrogate = false := by
        rw [hval, Bool.eq_false_iff, ne_eq, Utf8.isSurrogate_iff]
        omega
      have hbody := IsBody.unit (isUnit_hexPadded (by omega)) hs ih
      rw [hval] at hbody
      rw [he]
      exact hbody
    · rw [he]
      exact .plain (Nat.not_lt.mp hc) hq hb ih

/-- A quoted text is a literal of the text. -/
theorem isLiteral_quote (t : Text) : IsLiteral t (quote .fewest t) := ⟨_, isBody_escaped t, rfl⟩

/-- Items are written with commas between them. -/
theorem compactItems_eq_joinWith (items : List Json) :
    compactItems items = Text.joinWith "," (items.map compact) := by
  induction items with
  | nil => rfl
  | cons j rest ih =>
    by_cases hne : rest = []
    · rw [hne]
      rfl
    · rw [compactItems_cons j hne, ih, List.map_cons, Text.joinWith_cons _ _ (by simpa using hne)]
      rfl

/-- A member as it is written. -/
def spelling (m : Text × Json) : Spelling := ⟨m.1, quote .fewest m.1, compact m.2⟩

/-- Members are written with commas between them. -/
theorem compactMembers_eq_joinWith (members : List (Text × Json)) :
    compactMembers members = Text.joinWith "," ((members.map spelling).map Spelling.text) := by
  induction members with
  | nil => rfl
  | cons m rest ih =>
    by_cases hne : rest = []
    · rw [hne]
      exact compactMembers_singleton m.1 m.2
    · rw [compactMembers_cons m.1 m.2 hne, ih, List.map_cons, List.map_cons,
        Text.joinWith_cons _ _ (by simpa using hne), Spelling.text, List.append_assoc]
      rfl

/-- The written form of a document is a document of strict JSON, with nothing between the tokens and with
keys that ascend in every object. -/
theorem isDocument_write {j : Json} {depth : Nat} (h : Readable depth j) (hj : DistinctKeys j) :
    IsDocument .canonical (write j) := by
  rw [write]
  induction j generalizing depth with
  | null => exact .word (by decide)
  | bool b => cases b <;> exact .word (by decide)
  | int n => exact .number (isNumber_ofInt n)
  | float x => exact .number (isNumber_jsonText h)
  | text t => exact .text (isLiteral_quote t)
  | list items ih =>
    rw [readable_list_iff] at h
    rw [distinctKeys_list_iff] at hj
    rw [sorted_list, compact_list, compactItems_eq_joinWith, List.map_map]
    by_cases hne : items = []
    · rw [hne]
      exact .emptyList rfl
    · refine .list (by simpa using hne) ?_
      intro s hs
      obtain ⟨i, hi, rfl⟩ := List.mem_map.mp hs
      exact ih i hi (h.2 i hi) (hj i hi)
  | object members ih =>
    rw [readable_object_iff] at h
    rw [distinctKeys_object_iff] at hj
    rw [sorted_object, compact_object, compactMembers_eq_joinWith]
    by_cases hne : members = []
    · rw [hne]
      exact .emptyObject rfl
    · -- Sorting keeps the members, and distinct keys that are sorted ascend strictly.
      have hkeys := keys_sortMembers_pairwise ((keys_map_sorted members).symm ▸ hj.1)
      have hsome : sortMembers (members.map (Prod.map id sorted)) ≠ [] := by
        intro hnil
        have hperm := sortMembers_perm (members.map (Prod.map id sorted))
        rw [hnil] at hperm
        exact hne (List.map_eq_nil_iff.mp hperm.nil_eq.symm)
      refine .object (by simpa using hsome) ?_ ?_ (by rwa [List.map_map])
      · intro s hs
        obtain ⟨n, _, rfl⟩ := List.mem_map.mp hs
        exact ⟨[], quote .fewest n.1, [], rfl, isLiteral_quote n.1, rfl, (List.append_nil _).symm⟩
      · intro s hs
        obtain ⟨n, hn, rfl⟩ := List.mem_map.mp hs
        obtain ⟨m, hm, rfl⟩ := mem_sortMembers_map hn
        exact ih m hm (h.2 m hm) (hj.2 m hm)

end CanonStore.Json
