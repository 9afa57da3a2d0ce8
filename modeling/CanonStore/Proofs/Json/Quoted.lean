import CanonStore.Json.Reader
import CanonStore.Proofs.Numeral
import CanonStore.Proofs.Text.Pieces

/-!
# String literals in documents

What is read from a text is stated with `Gives`: the value and the rest that is left. The steps of the
reader bound what they leave; `outcome` forgets that bound, so that the outcome of one step can be said in
terms of those that it takes. Main statement:
`stringBody_escaped`, a literal reads back to the text that it quotes, whatever its code points; only in
ASCII must none of them be a surrogate.
-/

namespace CanonStore

namespace Numeral

/-- Four hexadecimal digits, most significant first. -/
theorem hexPadded_four {n : Nat} (h : n < 0x10000) : hexPadded 4 n
    = [CodePoint.ofHexValue (n / 0x1000), CodePoint.ofHexValue (n / 0x100 % 0x10),
       CodePoint.ofHexValue (n / 0x10 % 0x10), CodePoint.ofHexValue (n % 0x10)] := by
  have hzero : CodePoint.ofHexValue 0 = 0x30 := rfl
  -- By the number of digits: those in front of them are the zeros of the padding.
  by_cases h1 : n < 0x10
  · have hd : hexDigits n = [n] := by rw [hexDigits, if_pos h1]
    have h3 : n / 0x1000 = 0 := by omega
    have h2 : n / 0x100 % 0x10 = 0 := by omega
    have h1' : n / 0x10 % 0x10 = 0 := by omega
    have h0 : n % 0x10 = n := by omega
    rw [hexPadded, hex, hd, h3, h2, h1', h0, hzero]
    rfl
  · by_cases h2 : n < 0x100
    · have hd : hexDigits n = [n / 0x10, n % 0x10] := by
        rw [hexDigits, if_neg h1, hexDigits, if_pos (by omega)]
        rfl
      have h3 : n / 0x1000 = 0 := by omega
      have h2' : n / 0x100 % 0x10 = 0 := by omega
      have h1' : n / 0x10 % 0x10 = n / 0x10 := by omega
      rw [hexPadded, hex, hd, h3, h2', h1', hzero]
      rfl
    · by_cases h3 : n < 0x1000
      · have hd : hexDigits n = [n / 0x100, n / 0x10 % 0x10, n % 0x10] := by
          rw [hexDigits, if_neg h1, hexDigits, if_neg (by omega), hexDigits, if_pos (by omega),
            Nat.div_div_eq_div_mul]
          rfl
        have h3' : n / 0x1000 = 0 := by omega
        have h2' : n / 0x100 % 0x10 = n / 0x100 := by omega
        rw [hexPadded, hex, hd, h3', h2', hzero]
        rfl
      · have hd : hexDigits n
            = [n / 0x1000, n / 0x100 % 0x10, n / 0x10 % 0x10, n % 0x10] := by
          rw [hexDigits, if_neg h1, hexDigits, if_neg (by omega), hexDigits, if_neg (by omega),
            hexDigits, if_pos (by omega)]
          simp only [Nat.div_div_eq_div_mul]
          rfl
        rw [hexPadded, hex, hd]
        rfl

end Numeral

/-- Each of the sixteen digits has its value. -/
theorem CodePoint.hexValue?_ofHexValue : ∀ d < 16, (ofHexValue d).hexValue? = some d := by decide

namespace Json

/-- A step reads a value and leaves a given rest. -/
def Gives {α : Type} {s : Text} (step : Step α s) (a : α) (rest : Text) : Prop :=
  ∃ h, step = .ok (a, ⟨rest, h⟩)

/-- The outcome of a step, without the bound on what is left. -/
def outcome {α : Type} {s : Text} (step : Step α s) : Except Stop (α × Text) :=
  step.map fun p => (p.1, p.2.val)

theorem outcome_error {α : Type} {s : Text} (stop : Stop) :
    outcome (.error stop : Step α s) = .error stop := rfl

theorem outcome_ok {α : Type} {s : Text} (a : α) (r : Shorter s) :
    outcome (.ok (a, r) : Step α s) = .ok (a, r.val) := rfl

/-- A step gives what its outcome is. -/
theorem gives_iff {α : Type} {s : Text} {step : Step α s} {a : α} {rest : Text} :
    Gives step a rest ↔ outcome step = .ok (a, rest) := by
  constructor
  · rintro ⟨_, rfl⟩
    rfl
  · intro h
    cases step with
    | error stop => cases h
    | ok p =>
      cases h
      exact ⟨p.2.property, rfl⟩

theorem outcome_eq_error_iff {α : Type} {s : Text} {step : Step α s} {stop : Stop} :
    outcome step = .error stop ↔ step = .error stop := by
  cases step <;> simp [outcome, Except.map]

/-! ## Escapes -/

/-- Four written digits are read back. -/
theorem hex4?_hexPadded {n : Nat} (h : n < 0x10000) (rest : Text) :
    hex4? (Numeral.hexPadded 4 n ++ rest) = some n := by
  have hv := CodePoint.hexValue?_ofHexValue
  rw [Numeral.hexPadded_four h]
  simp only [List.cons_append, hex4?, hv (n / 0x1000) (by omega), hv (n / 0x100 % 0x10) (by omega),
    hv (n / 0x10 % 0x10) (by omega), hv (n % 0x10) (by omega)]
  simp only [Option.pure_def, Option.bind_eq_bind, Option.bind_some, Option.some.injEq]
  omega

/-- Numbers below 0x10000 are written with four digits. -/
theorem length_hexPadded_four {n : Nat} (h : n < 0x10000) : (Numeral.hexPadded 4 n).length = 4 := by
  rw [Numeral.hexPadded_four h]
  rfl

theorem unitEscape_append (n : Nat) (rest : Text) :
    unitEscape n ++ rest = 0x5C :: 0x75 :: (Numeral.hexPadded 4 n ++ rest) := rfl

/-- An escape by number reads back if its number is no half of a surrogate pair. -/
theorem unitEscapeAt_hexPadded {n : Nat} (h : n < 0x10000)
    (hhigh : (CodePoint.ofNat n).isHighSurrogate = false) {rest : Text} (hr : rest ≠ []) :
    Gives (unitEscapeAt (Numeral.hexPadded 4 n ++ rest)) (CodePoint.ofNat n) rest := by
  have hdrop : (Numeral.hexPadded 4 n ++ rest).drop 4 = rest :=
    List.drop_left' (length_hexPadded_four h)
  have hlt : rest.length < (Numeral.hexPadded 4 n ++ rest).length := by
    rw [List.length_append, length_hexPadded_four h]
    omega
  refine ⟨hlt, ?_⟩
  unfold unitEscapeAt
  rw [dif_neg (by rwa [hdrop])]
  simp only [hex4?_hexPadded h, hdrop, hhigh]
  split <;> simp

/-- Two escapes by number read back together if their numbers are the halves of a surrogate pair. -/
theorem unitEscapeAt_pair {m n : Nat} (hm : m < 0x10000) (hn : n < 0x10000)
    (hhigh : (CodePoint.ofNat m).isHighSurrogate) (hlow : (CodePoint.ofNat n).isLowSurrogate) {rest : Text}
    (hr : rest ≠ []) :
    Gives (unitEscapeAt (Numeral.hexPadded 4 m ++ (unitEscape n ++ rest)))
      (CodePoint.ofSurrogates (CodePoint.ofNat m) (CodePoint.ofNat n)) rest := by
  have hmlen := length_hexPadded_four hm
  have hnlen := length_hexPadded_four hn
  have hdrop : (Numeral.hexPadded 4 m ++ (unitEscape n ++ rest)).drop 4 = unitEscape n ++ rest := List.drop_left' hmlen
  have hprefix : Text.dropPrefix? "\\u" (unitEscape n ++ rest) = some (Numeral.hexPadded 4 n ++ rest) := by
    rw [unitEscape, List.append_assoc]
    exact Text.dropPrefix?_append _ _
  have hafter : (Numeral.hexPadded 4 n ++ rest).drop 4 = rest := List.drop_left' hnlen
  have hend : (Numeral.hexPadded 4 m ++ (unitEscape n ++ rest)).drop 10 = rest := by
    rw [← List.append_assoc]
    exact List.drop_left' (by rw [List.length_append, hmlen, unitEscape, List.length_append, hnlen]; rfl)
  have hlt : rest.length < (Numeral.hexPadded 4 m ++ (unitEscape n ++ rest)).length := by
    rw [List.length_append, List.length_append, hmlen]
    omega
  -- Four digits and an escape of six code points are taken off; what is left decides that more was
  -- expected.
  refine ⟨hlt, ?_⟩
  unfold unitEscapeAt
  rw [dif_neg (by rw [hdrop]; exact List.append_ne_nil_of_right_ne_nil _ hr)]
  simp only [hex4?_hexPadded hm, hdrop, hprefix, hhigh, hafter, hex4?_hexPadded hn, hlow, hend, Bool.not_true,
    Bool.false_or, List.isEmpty_iff, hr, if_false, if_true]

/-- A code point is written as an escape by letter, as one by number, or as itself. -/
theorem escapeOne_cases (c : CodePoint) :
    (∃ e : CodePoint, e ≠ 0x75 ∧ escapeValue? e = some c ∧ escapeOne .fewest c = [0x5C, e]) ∨
    (c.val < 0x20 ∧ escapeOne .fewest c = unitEscape c.val) ∨
    (c ≠ 0x22 ∧ c ≠ 0x5C ∧ ¬ c.val < 0x20 ∧ escapeOne .fewest c = [c]) := by
  by_cases hquote : c = CodePoint.ofChar '"'
  · exact .inl ⟨0x22, by decide, hquote ▸ rfl, hquote ▸ rfl⟩
  by_cases hbackslash : c = CodePoint.ofChar '\\'
  · exact .inl ⟨0x5C, by decide, hbackslash ▸ rfl, hbackslash ▸ rfl⟩
  by_cases hfeed : c = CodePoint.ofChar '\n'
  · exact .inl ⟨0x6E, by decide, hfeed ▸ rfl, hfeed ▸ rfl⟩
  by_cases hreturn : c = CodePoint.ofChar '\r'
  · exact .inl ⟨0x72, by decide, hreturn ▸ rfl, hreturn ▸ rfl⟩
  by_cases htab : c = CodePoint.ofChar '\t'
  · exact .inl ⟨0x74, by decide, htab ▸ rfl, htab ▸ rfl⟩
  by_cases hback : c = 0x08
  · exact .inl ⟨0x62, by decide, hback ▸ rfl, hback ▸ rfl⟩
  by_cases hform : c = 0x0C
  · exact .inl ⟨0x66, by decide, hform ▸ rfl, hform ▸ rfl⟩
  -- None of the short escapes applies.
  have hother : escapeOne .fewest c = if c.val < 0x20 then unitEscape c.val else [c] := by
    rw [escapeOne, if_neg hquote, if_neg hbackslash, if_neg hfeed, if_neg hreturn, if_neg htab,
      if_neg hback, if_neg hform]
  by_cases hc : c.val < 0x20
  · exact .inr (.inl ⟨hc, by rw [hother, if_pos hc]⟩)
  · exact .inr (.inr ⟨hquote, hbackslash, hc, by rw [hother, if_neg hc]⟩)

/-- The surrogates of a code point beyond the basic plane. -/
theorem halves_spec {c : CodePoint} (hc : 0x10000 ≤ c.val) :
    let m := 0xD800 + (c.val - 0x10000) / 0x400
    let n := 0xDC00 + c.val % 0x400
    m < 0x10000 ∧ n < 0x10000 ∧ (CodePoint.ofNat m).isHighSurrogate ∧ (CodePoint.ofNat n).isLowSurrogate ∧
      CodePoint.ofSurrogates (CodePoint.ofNat m) (CodePoint.ofNat n) = c := by
  have hlt : c.val < 0x110000 := c.isLt
  intro m n
  -- The two halves keep ten bits each of what is left above the first plane.
  have hm : 0xD800 ≤ m ∧ m ≤ 0xDBFF := by omega
  have hn : 0xDC00 ≤ n ∧ n ≤ 0xDFFF := by omega
  have hmval : (CodePoint.ofNat m).val = m := CodePoint.val_ofNat (by omega)
  have hnval : (CodePoint.ofNat n).val = n := CodePoint.val_ofNat (by omega)
  refine ⟨by omega, by omega, ?_, ?_, ?_⟩
  · simp only [CodePoint.isHighSurrogate, hmval, Bool.and_eq_true, decide_eq_true_eq]
    exact hm
  · simp only [CodePoint.isLowSurrogate, hnval, Bool.and_eq_true, decide_eq_true_eq]
    exact hn
  · have hsum : 0x10000 + (m - 0xD800) * 0x400 + (n - 0xDC00) = c.val := by omega
    rw [CodePoint.ofSurrogates, hmval, hnval, hsum]
    exact Fin.ext (CodePoint.val_ofNat hlt)

/-- In ASCII, code points from the last control character on are escaped by number: those beyond the basic plane
by the numbers of their two surrogates. -/
theorem escapeOne_ascii (c : CodePoint) :
    escapeOne .ascii c =
      if c.val < 0x7F then escapeOne .fewest c
      else if c.val < 0x10000 then unitEscape c.val
      else unitEscape (0xD800 + (c.val - 0x10000) / 0x400) ++ unitEscape (0xDC00 + c.val % 0x400) := by
  by_cases hc : c.val < 0x7F
  · simp only [escapeOne, if_pos hc]
  · have hne : ∀ a : CodePoint, a.val < 0x7F → ¬ c = a := by
      rintro a ha rfl
      exact hc ha
    rw [if_neg hc, escapeOne, if_neg (hne (CodePoint.ofChar '"') (by decide)),
      if_neg (hne (CodePoint.ofChar '\\') (by decide)), if_neg (hne (CodePoint.ofChar '\n') (by decide)),
      if_neg (hne (CodePoint.ofChar '\r') (by decide)), if_neg (hne (CodePoint.ofChar '\t') (by decide)),
      if_neg (hne 0x08 (by decide)), if_neg (hne 0x0C (by decide)), if_neg (show ¬ c.val < 0x20 by omega)]
    exact if_neg hc

/-- The text is read back from its literal: where surrogates are written as numbers, it holds none, because two of
them could be taken for a pair. -/
def Quotable (mode : Escaping) (t : Text) : Prop := mode = .ascii → ∀ c ∈ t, c.isSurrogate = false

/-- With the fewest escapes every text can be quoted. -/
theorem quotable_fewest (t : Text) : Quotable .fewest t := nofun

/-! ## Code points of a literal -/

section Item

variable (opened : Text) {rest : Text}

/-- A quotation mark ends the text. -/
theorem stringItem_quote (rest : Text) : Gives (stringItem opened (0x22 :: rest)) none rest :=
  ⟨by simp, rfl⟩

/-- A character that needs no escape stands for itself. -/
theorem stringItem_plain {c : CodePoint} (hq : c ≠ 0x22) (hc : ¬ c.val < 0x20) (hb : c ≠ 0x5C) :
    Gives (stringItem opened (c :: rest)) (some c) rest := by
  have hq' : ¬ c = CodePoint.ofChar '"' := hq
  have hb' : c ≠ CodePoint.ofChar '\\' := hb
  refine ⟨by simp, ?_⟩
  rw [stringItem.eq_def]
  simp only [if_neg hq', if_neg hc, if_pos hb']

/-- A letter after a backslash stands for the character that it is the escape of. -/
theorem stringItem_escape {e v : CodePoint} (hu : e ≠ 0x75) (hv : escapeValue? e = some v) :
    Gives (stringItem opened (0x5C :: e :: rest)) (some v) rest := by
  have hu' : ¬ e = CodePoint.ofChar 'u' := hu
  have hq : ¬ (0x5C : CodePoint) = CodePoint.ofChar '"' := by decide
  have hc : ¬ (0x5C : CodePoint).val < 0x20 := by decide
  have hb : ¬ (0x5C : CodePoint) ≠ CodePoint.ofChar '\\' := by decide
  refine ⟨by simp only [List.length_cons]; omega, ?_⟩
  rw [stringItem, if_neg hq, if_neg hc, if_neg hb]
  simp only [if_neg hu', hv]

/-- How an escape of four digits is read. -/
theorem outcome_stringItem_unit (after : Text) :
    outcome (stringItem opened (0x5C :: 0x75 :: after)) = (do
      let (v, r) ← outcome (unitEscapeAt after)
      .ok (some v, r)) := by
  have hu : (0x75 : CodePoint) = CodePoint.ofChar 'u' := rfl
  have hq : ¬ (0x5C : CodePoint) = CodePoint.ofChar '"' := by decide
  have hc : ¬ (0x5C : CodePoint).val < 0x20 := by decide
  have hb : ¬ (0x5C : CodePoint) ≠ CodePoint.ofChar '\\' := by decide
  rw [stringItem, if_neg hq, if_neg hc, if_neg hb]
  simp only [if_pos hu]
  cases unitEscapeAt after <;> rfl

theorem stringItem_unit {after : Text} {v : CodePoint} (h : Gives (unitEscapeAt after) v rest) :
    Gives (stringItem opened (0x5C :: 0x75 :: after)) (some v) rest := by
  rw [gives_iff] at h ⊢
  rw [outcome_stringItem_unit, h]
  rfl

/-- An escape by number is read back to its code point, if that is no surrogate. -/
theorem stringItem_unitEscape {c : CodePoint} (hc : c.val < 0x10000) (hs : c.isSurrogate = false)
    (hr : rest ≠ []) : Gives (stringItem opened (unitEscape c.val ++ rest)) (some c) rest := by
  have hval : CodePoint.ofNat c.val = c := Fin.ext (CodePoint.val_ofNat c.isLt)
  have hhigh : (CodePoint.ofNat c.val).isHighSurrogate = false := by
    rw [hval]
    simp only [CodePoint.isSurrogate, CodePoint.isHighSurrogate] at hs ⊢
    simp at hs ⊢
    omega
  have hunit := unitEscapeAt_hexPadded hc hhigh hr
  rw [hval] at hunit
  rw [unitEscape_append]
  exact stringItem_unit opened hunit

/-- Two escapes by number are read back to the code point whose surrogates they are. -/
theorem stringItem_pair {c : CodePoint} (hc : 0x10000 ≤ c.val) (hr : rest ≠ []) :
    Gives (stringItem opened (unitEscape (0xD800 + (c.val - 0x10000) / 0x400) ++
      unitEscape (0xDC00 + c.val % 0x400) ++ rest)) (some c) rest := by
  obtain ⟨hm, hn, hhigh, hlow, hpair⟩ := halves_spec hc
  have hunit := unitEscapeAt_pair hm hn hhigh hlow hr
  rw [hpair] at hunit
  rw [List.append_assoc, unitEscape_append]
  exact stringItem_unit opened hunit

/-- A character that was written with the fewest escapes is read back. -/
theorem stringItem_fewest (c : CodePoint) (hr : rest ≠ []) :
    Gives (stringItem opened (escapeOne .fewest c ++ rest)) (some c) rest := by
  rcases escapeOne_cases c with ⟨e, hu, hv, he⟩ | ⟨hc, he⟩ | ⟨hq, hb, hc, he⟩
  · rw [he]
    exact stringItem_escape opened hu hv
  · rw [he]
    -- Only control characters are escaped by number, and none of them is a surrogate.
    exact stringItem_unitEscape opened (by omega) (by simp [CodePoint.isSurrogate]; omega) hr
  · rw [he]
    exact stringItem_plain opened hq hc hb

/-- Each code point is read back from what it is written as, if the literal goes on after it. -/
theorem stringItem_escapeOne {mode : Escaping} {c : CodePoint} (h : mode = .ascii → c.isSurrogate = false)
    (hr : rest ≠ []) : Gives (stringItem opened (escapeOne mode c ++ rest)) (some c) rest := by
  cases mode with
  | fewest => exact stringItem_fewest opened c hr
  | ascii =>
    rw [escapeOne_ascii]
    by_cases hc : c.val < 0x7F
    · rw [if_pos hc]
      exact stringItem_fewest opened c hr
    rw [if_neg hc]
    by_cases hplane : c.val < 0x10000
    · rw [if_pos hplane]
      exact stringItem_unitEscape opened hplane (h rfl) hr
    · rw [if_neg hplane]
      exact stringItem_pair opened (Nat.le_of_not_lt hplane) hr

end Item

/-! ## Whole literals -/

/-- The body of a literal reads back to the text that it quotes. -/
theorem stringBody_escaped {mode : Escaping} (opened : Text) {t : Text} (h : Quotable mode t) (rest : Text) :
    Gives (stringBody opened (t.flatMap (escapeOne mode) ++ 0x22 :: rest)) t rest := by
  induction t with
  | nil =>
    obtain ⟨hlt, hitem⟩ := stringItem_quote opened rest
    rw [List.flatMap_nil, List.nil_append]
    refine ⟨hlt, ?_⟩
    rw [stringBody, hitem]
  | cons c t ih =>
    obtain ⟨hlt', hbody⟩ := ih fun hmode d hd => h hmode d (List.mem_cons_of_mem c hd)
    have hne : t.flatMap (escapeOne mode) ++ 0x22 :: rest ≠ [] := by simp
    obtain ⟨hlt, hitem⟩ := stringItem_escapeOne opened (fun hmode => h hmode c List.mem_cons_self) hne
    rw [List.flatMap_cons, List.append_assoc]
    refine ⟨hlt'.trans hlt, ?_⟩
    rw [stringBody, hitem]
    simp only [hbody]

/-- A quoted text stands between quotation marks. -/
theorem quote_append (mode : Escaping) (t rest : Text) : quote mode t ++ rest
    = 0x22 :: (t.flatMap (escapeOne mode) ++ 0x22 :: rest) := by
  simp only [quote, List.cons_append, List.append_assoc, List.nil_append]

end Json

end CanonStore
