import CanonStore.Proofs.Hex
import CanonStore.Proofs.Identifier.Bits
import CanonStore.Proofs.Text.Pieces
import Mathlib.Data.List.Forall2
import Mathlib.Data.List.SplitLengths

/-!
# The shape of identifiers

An identifier shows its octets in groups of digits (`isGrouped_format`). The texts that fit the pattern are
those of marked octets, followed by a line feed or not (`isWellFormed_iff_exists_format`).
-/

namespace CanonStore.Identifier

open CodePoint (ofHexValue)

variable {t u : Text} {m : Bytes}

/-! ## Digits -/

/-- The digits of an identifier are those that octets are written with. -/
theorem isDigit_iff {c : CodePoint} : isDigit c = true ↔ ∃ k < 16, c = ofHexValue k := by
  constructor
  · intro h
    obtain ⟨hhex, hupper⟩ := Bool.and_eq_true_iff.mp h
    obtain ⟨k, hk⟩ := Option.isSome_iff_exists.mp hhex
    have hrange : 0x30 ≤ c.val ∧ c.val ≤ 0x39 ∨ 0x61 ≤ c.val ∧ c.val ≤ 0x66 := by
      have hval := CodePoint.val_of_hexValue? hk
      simp only [CodePoint.isUpper, Bool.not_eq_true', Bool.and_eq_false_iff, decide_eq_false_iff_not] at hupper
      omega
    -- The decimal digits and the letters are two ranges, each of which is shifted to its values.
    rcases hrange with hdecimal | hletter
    · refine ⟨c.val - 0x30, by omega, ?_⟩
      rw [ofHexValue, if_pos (by omega), Nat.add_sub_cancel' (by omega)]
      exact (Fin.ofNat_val_eq_self c).symm
    · refine ⟨c.val - 0x57, by omega, ?_⟩
      rw [ofHexValue, if_neg (by omega), Nat.add_sub_cancel' (by omega)]
      exact (Fin.ofNat_val_eq_self c).symm
  · rintro ⟨k, hk, rfl⟩
    revert k
    decide

/-- Octets are written with the digits of identifiers. -/
theorem isDigit_of_mem_encode (d : Bytes) : ∀ c ∈ Hex.encode d, isDigit c = true :=
  Hex.forall_mem_encode (fun k hk => isDigit_iff.mpr ⟨k, hk, rfl⟩) d

/-! ## Groups of digits -/

/-- The text holds these digits, in groups with hyphens between them. -/
def IsGrouped (digits t : Text) : Prop :=
  ∃ parts : List Text, parts.map List.length = groups ∧ parts.flatten = digits ∧ t = Text.joinWith "-" parts

/-- How many octets the digits of each group spell. -/
def slices : List Nat := [4, 2, 2, 2, 6]

/-- Octets can be split before they are written or after. -/
theorem map_encode_splitLengths (sizes : List Nat) (m : Bytes) :
    (sizes.splitLengths m).map Hex.encode = (sizes.map (2 * ·)).splitLengths (Hex.encode m) := by
  induction sizes generalizing m with
  | nil => rfl
  | cons n sizes ih =>
    simp only [List.splitLengths_cons, List.map_cons, Hex.take_encode, Hex.drop_encode, ih]

/-- An identifier has hyphens between its five slices. -/
theorem format_eq (m : Bytes) : format m = Text.joinWith "-" ((slices.splitLengths m).map Hex.encode) := by
  rw [map_encode_splitLengths]
  simp only [format, slices, List.map_cons, List.map_nil, List.splitLengths_cons, List.splitLengths_nil,
    List.drop_drop, List.drop_zero]

/-- Five slices, of which the third starts with the octet of the version and the fourth with that of the variant. -/
theorem map_length_eq_slices_iff {ds : List Bytes} :
    ds.map List.length = slices ↔
      ∃ a b x c y d e, ds = [a, b, x :: c, y :: d, e] ∧ a.length = 4 ∧ b.length = 2 ∧ c.length = 1 ∧
        d.length = 1 ∧ e.length = 6 := by
  constructor
  · intro h
    simp only [slices, List.map_eq_cons_iff, List.map_eq_nil_iff] at h
    obtain ⟨a, _, rfl, ha, b, _, rfl, hb, _, _, rfl, hxc, _, _, rfl, hyd, e, _, rfl, he, rfl⟩ := h
    obtain ⟨x, c, rfl⟩ := List.exists_cons_of_length_eq_add_one hxc
    obtain ⟨y, d, rfl⟩ := List.exists_cons_of_length_eq_add_one hyd
    exact ⟨a, b, x, c, y, d, e, rfl, ha, hb, Nat.succ.inj hxc, Nat.succ.inj hyd, he⟩
  · rintro ⟨a, b, x, c, y, d, e, rfl, ha, hb, hc, hd, he⟩
    simp [slices, ha, hb, hc, hd, he]

/-- Parts in a row fall back into these parts. -/
theorem splitLengths_flatten {α : Type} (parts : List (List α)) :
    (parts.map List.length).splitLengths parts.flatten = parts := by
  induction parts with
  | nil => rfl
  | cons part parts ih =>
    rw [List.map_cons, List.splitLengths_cons, List.flatten_cons, List.take_left, List.drop_left, ih]

/-- The octets in the slices that the groups spell. -/
theorem exists_slices (hm : m.length = size) :
    ∃ ds : List Bytes, ds.map List.length = slices ∧ ds.flatten = m := by
  refine ⟨slices.splitLengths m, ?_, ?_⟩
  · apply List.map_splitLengths_length
    exact Nat.le_of_eq hm.symm
  · apply List.flatten_splitLengths
    exact Nat.le_of_eq hm

/-- An identifier made of its slices. -/
theorem format_flatten {ds : List Bytes} (hds : ds.map List.length = slices) :
    format ds.flatten = Text.joinWith "-" (ds.map Hex.encode) := by
  rw [format_eq, ← hds, splitLengths_flatten]

/-- The digits of an identifier stand in groups. -/
theorem isGrouped_format (hm : m.length = size) : IsGrouped (Hex.encode m) (format m) := by
  obtain ⟨ds, hds, rfl⟩ := exists_slices hm
  refine ⟨ds.map Hex.encode, ?_, ?_, format_flatten hds⟩
  · have hlength : List.length ∘ Hex.encode = (2 * ·) ∘ List.length := funext Hex.length_encode
    rw [List.map_map, hlength, ← List.map_map, hds]
    rfl
  · exact (Hex.encode_flatten ds).symm

section IsGrouped

variable {digits : Text}

/-- With its hyphens a text in groups has 36 characters. -/
theorem IsGrouped.length_eq (h : IsGrouped digits t) : t.length = 36 := by
  obtain ⟨parts, hlengths, rfl, rfl⟩ := h
  simp only [groups, List.map_eq_cons_iff, List.map_eq_nil_iff] at hlengths
  obtain ⟨a, _, rfl, ha, b, _, rfl, hb, c, _, rfl, hc, d, _, rfl, hd, e, _, rfl, he, rfl⟩ := hlengths
  simp [Text.joinWith, Text.ofString, ha, hb, hc, hd, he]

/-- A text in groups has no other characters than its digits and hyphens. -/
theorem IsGrouped.forall_mem {P : CodePoint → Prop} (h : IsGrouped digits t) (hhyphen : P '-')
    (hdigits : ∀ c ∈ digits, P c) : ∀ c ∈ t, P c := by
  obtain ⟨parts, _, rfl, rfl⟩ := h
  apply Text.forall_mem_joinWith (List.forall_mem_singleton.mpr hhyphen)
  intro part hpart c hc
  exact hdigits c (List.mem_flatten.mpr ⟨part, hpart, hc⟩)

/-- The digits are what stands between the hyphens. -/
theorem IsGrouped.flatten_splitOn (h : IsGrouped digits t) (hdigits : ∀ c ∈ digits, isDigit c = true) :
    (Text.splitOn '-' t).flatten = digits := by
  obtain ⟨parts, hlengths, rfl, rfl⟩ := h
  have hne : parts ≠ [] := by
    rintro rfl
    cases hlengths
  have hhyphen : ∀ part ∈ parts, (CodePoint.ofChar '-') ∉ part := by
    intro part hpart hmem
    cases hdigits _ (List.mem_flatten.mpr ⟨part, hpart, hmem⟩)
  exact congrArg List.flatten (Text.splitOn_joinWith hne hhyphen)

end IsGrouped

/-- An identifier consists of digits and hyphens. -/
theorem mem_format (hm : m.length = size) : ∀ c ∈ format m, isDigit c = true ∨ c = '-' :=
  (isGrouped_format hm).forall_mem (.inr rfl) fun c hc => .inl (isDigit_of_mem_encode m c hc)

/-- An identifier shows all of its octets. -/
theorem format_inj {r s : Bytes} (hr : r.length = size) (hs : s.length = size) : format r = format s ↔ r = s := by
  constructor
  · intro h
    apply Hex.encode_injective
    rw [← (isGrouped_format hr).flatten_splitOn (isDigit_of_mem_encode r), h,
      (isGrouped_format hs).flatten_splitOn (isDigit_of_mem_encode s)]
  · exact congrArg format

/-! ## What fits a pattern -/

/-- Each code point of the text is allowed at its place. -/
def Matches (ps : List (CodePoint → Bool)) (t : Text) : Prop := List.Forall₂ (fun p c => p c = true) ps t

section Matches

variable {p : CodePoint → Bool} {ps qs : List (CodePoint → Bool)}

theorem matches_nil_iff : Matches [] t ↔ t = [] := List.forall₂_nil_left_iff

theorem matches_cons_iff : Matches (p :: ps) t ↔ ∃ c u, p c = true ∧ Matches ps u ∧ t = c :: u :=
  List.forall₂_cons_left_iff

/-- A text matches two patterns in a row if it falls into two parts that match. -/
theorem matches_append_iff : Matches (ps ++ qs) t ↔ ∃ a b, Matches ps a ∧ Matches qs b ∧ t = a ++ b := by
  induction ps generalizing t with
  | nil => simp [matches_nil_iff]
  | cons p ps ih =>
    simp only [List.cons_append, matches_cons_iff, ih]
    constructor
    · rintro ⟨c, _, hc, ⟨a, b, ha, hb, rfl⟩, rfl⟩
      exact ⟨c :: a, b, ⟨c, a, hc, ha, rfl⟩, hb, rfl⟩
    · rintro ⟨_, b, ⟨c, a, hc, ha, rfl⟩, hb, rfl⟩
      exact ⟨c, a ++ b, hc, ⟨a, b, ha, hb, rfl⟩, rfl⟩

/-- A text matches a pattern repeated if it has as many characters, and each one matches. -/
theorem matches_replicate_iff {n : Nat} :
    Matches (List.replicate n p) t ↔ t.length = n ∧ ∀ c ∈ t, p c = true := by
  induction n generalizing t with
  | zero => simp +contextual [matches_nil_iff]
  | succ n ih =>
    rw [List.replicate_succ, matches_cons_iff]
    constructor
    · rintro ⟨c, u, hc, hu, rfl⟩
      obtain ⟨hlength, hu⟩ := ih.mp hu
      exact ⟨congrArg (· + 1) hlength, List.forall_mem_cons.mpr ⟨hc, hu⟩⟩
    · rintro ⟨hlength, h⟩
      obtain ⟨c, u, rfl⟩ := List.exists_cons_of_length_eq_add_one hlength
      obtain ⟨hc, hu⟩ := List.forall_mem_cons.mp h
      exact ⟨c, u, hc, ih.mpr ⟨Nat.succ.inj hlength, hu⟩, rfl⟩

/-- Groups that fit their patterns, with hyphens between them. -/
theorem matches_intercalate_iff {gs : List (List (CodePoint → Bool))} :
    Matches (List.intercalate [fun c => c = '-'] gs) t ↔
      ∃ parts, List.Forall₂ Matches gs parts ∧ t = Text.joinWith "-" parts := by
  induction gs generalizing t with
  | nil => simp [Text.joinWith, matches_nil_iff]
  | cons g gs ih =>
    cases gs with
    | nil => simp [Text.joinWith, List.forall₂_cons_left_iff]
    | cons g' gs =>
      -- The sign stands between groups only, so one more group brings one only if there are others.
      have hne {parts : List Text} (h : List.Forall₂ Matches (g' :: gs) parts) : parts ≠ [] := by
        rintro rfl
        cases h
      rw [List.intercalate_cons_cons, List.append_assoc, matches_append_iff]
      constructor
      · rintro ⟨part, _, hpart, hafter, rfl⟩
        obtain ⟨c, rest, hc, hrest, rfl⟩ := matches_cons_iff.mp hafter
        obtain ⟨parts, hparts, rfl⟩ := ih.mp hrest
        obtain rfl := of_decide_eq_true hc
        exact ⟨part :: parts, .cons hpart hparts, (Text.joinWith_cons "-" part (hne hparts)).symm⟩
      · rintro ⟨_, h, rfl⟩
        obtain ⟨part, parts, hpart, hparts, rfl⟩ := List.forall₂_cons_left_iff.mp h
        rw [Text.joinWith_cons "-" part (hne hparts)]
        exact ⟨part, _, hpart, .cons (decide_eq_true rfl) (ih.mpr ⟨parts, hparts, rfl⟩), rfl⟩

/-- A text fits if each of its code points is allowed at its place, after a line feed at its end is left out. -/
theorem fits_iff : fits ps t = true ↔ ∃ u, Matches ps u ∧ (t = u ∨ t = u ++ "\n") := by
  induction ps generalizing t with
  | nil =>
    simp only [matches_nil_iff, exists_eq_left, List.nil_append]
    -- All that may be left over is one newline.
    match t with
    | [] => simp [fits]
    | [c] => simp [fits, Text.ofString]
    | c :: d :: rest => simp [fits, Text.ofString]
  | cons p ps ih =>
    cases t with
    | nil => simp [fits, matches_cons_iff]
    | cons c cs =>
      rw [fits, Bool.and_eq_true, ih]
      constructor
      · rintro ⟨hc, u, hu, hcs⟩
        refine ⟨c :: u, .cons hc hu, ?_⟩
        exact hcs.imp (congrArg (c :: ·)) (congrArg (c :: ·))
      · rintro ⟨_, h, hcs⟩
        obtain ⟨d, u, hd, hu, rfl⟩ := matches_cons_iff.mp h
        rcases hcs with hcs | hcs
        · obtain ⟨rfl, rfl⟩ := List.cons_eq_cons.mp hcs
          exact ⟨hd, cs, hu, .inl rfl⟩
        · obtain ⟨rfl, rfl⟩ := List.cons_eq_cons.mp hcs
          exact ⟨hd, u, hu, .inr rfl⟩

end Matches

/-! ## The pattern of identifiers -/

def isVersionDigit (c : CodePoint) : Bool := c = '4'

def isVariantDigit (c : CodePoint) : Bool := c = '8' || c = '9' || c = 'a' || c = 'b'

/-- The digit of the version is a four. -/
theorem isVersionDigit_ofHexValue : ∀ k < 16, isVersionDigit (ofHexValue k) = true ↔ k = 4 := by decide

/-- The digit of the variant starts with the bits one and zero. -/
theorem isVariantDigit_ofHexValue : ∀ k < 16, isVariantDigit (ofHexValue k) = true ↔ k / 4 = 2 := by decide

theorem isDigit_of_isVersionDigit {c : CodePoint} (h : isVersionDigit c = true) : isDigit c = true := by
  obtain rfl := of_decide_eq_true h
  rfl

theorem isDigit_of_isVariantDigit {c : CodePoint} (h : isVariantDigit c = true) : isDigit c = true := by
  simp only [isVariantDigit, Bool.or_eq_true, decide_eq_true_eq] at h
  rcases h with ((rfl | rfl) | rfl) | rfl <;> rfl

/-- What may stand at each place of each group. -/
def groupPatterns : List (List (CodePoint → Bool)) :=
  [List.replicate 8 isDigit, List.replicate 4 isDigit, isVersionDigit :: List.replicate 3 isDigit,
    isVariantDigit :: List.replicate 3 isDigit, List.replicate 12 isDigit]

theorem pattern_eq : pattern = List.intercalate [fun c : CodePoint => decide (c = '-')] groupPatterns := rfl

/-- An even number of digits are those of some octets. -/
theorem matches_digits_iff {n : Nat} :
    Matches (List.replicate (2 * n) isDigit) t ↔ ∃ d : Bytes, d.length = n ∧ t = Hex.encode d := by
  rw [matches_replicate_iff]
  constructor
  · rintro ⟨hlength, h⟩
    obtain ⟨d, hd, rfl⟩ := Hex.exists_encode (fun c hc => isDigit_iff.mp (h c hc)) hlength
    exact ⟨d, hd, rfl⟩
  · rintro ⟨d, rfl, rfl⟩
    exact ⟨Hex.length_encode d, isDigit_of_mem_encode d⟩

/-- A group whose first digit is one of a few. -/
theorem matches_cons_digits_iff {p : CodePoint → Bool} (hp : ∀ c, p c = true → isDigit c = true) {n : Nat} :
    Matches (p :: List.replicate (2 * n + 1) isDigit) t ↔
      ∃ (b : UInt8) (d : Bytes), p (ofHexValue (b.toNat / 16)) = true ∧ d.length = n ∧ t = Hex.encode (b :: d) := by
  constructor
  · intro h
    obtain ⟨c, u, hc, hu, rfl⟩ := matches_cons_iff.mp h
    have hdigits : Matches (List.replicate (2 * (n + 1)) isDigit) (c :: u) := .cons (hp c hc) hu
    obtain ⟨d, hd, hcu⟩ := matches_digits_iff.mp hdigits
    obtain ⟨b, d, rfl⟩ := List.exists_cons_of_length_eq_add_one hd
    obtain ⟨rfl, -⟩ := List.cons_eq_cons.mp hcu
    exact ⟨b, d, hc, Nat.succ.inj hd, hcu⟩
  · rintro ⟨b, d, hb, hd, rfl⟩
    have hdigits : Matches (List.replicate (2 * (n + 1)) isDigit) (Hex.encode (b :: d)) :=
      matches_digits_iff.mpr ⟨b :: d, congrArg (· + 1) hd, rfl⟩
    obtain ⟨_, _, _, hu, hcu⟩ := matches_cons_iff.mp hdigits
    obtain ⟨rfl, rfl⟩ := List.cons_eq_cons.mp hcu
    exact .cons hb hu

/-- The octets say that they are marked with the first digits of the third and the fourth group. -/
theorem mark_flatten_eq_self_iff {a b c d e : Bytes} {x y : UInt8} (ha : a.length = 4) (hb : b.length = 2)
    (hc : c.length = 1) :
    mark [a, b, x :: c, y :: d, e].flatten = [a, b, x :: c, y :: d, e].flatten ↔
      isVersionDigit (ofHexValue (x.toNat / 16)) = true ∧ isVariantDigit (ofHexValue (y.toNat / 16)) = true := by
  have hhigh (z : UInt8) : z.toNat / 16 < 16 := Nat.div_lt_of_lt_mul z.toNat_lt
  rw [isVersionDigit_ofHexValue _ (hhigh x), isVariantDigit_ofHexValue _ (hhigh y), Nat.div_div_eq_div_mul,
    mark_eq_self_iff (by simp [ha, hb]; omega) (by simp [ha, hb, hc]; omega)]
  simp [List.getElem_cons, ha, hb, hc]

/-- The groups fit if they spell the slices of marked octets. -/
theorem forall₂_matches_groupPatterns_iff {parts : List Text} :
    List.Forall₂ Matches groupPatterns parts ↔
      ∃ ds : List Bytes, ds.map List.length = slices ∧ mark ds.flatten = ds.flatten ∧ parts = ds.map Hex.encode := by
  constructor
  · intro h
    simp only [groupPatterns, List.forall₂_cons_left_iff, List.forall₂_nil_left_iff] at h
    obtain ⟨_, _, h₁, ⟨_, _, h₂, ⟨_, _, h₃, ⟨_, _, h₄, ⟨_, _, h₅, rfl, rfl⟩, rfl⟩, rfl⟩, rfl⟩, rfl⟩ := h
    -- The third and the fourth group begin with a digit that the pattern restricts; the marks are in it.
    obtain ⟨a, ha, rfl⟩ := (matches_digits_iff (n := 4)).mp h₁
    obtain ⟨b, hb, rfl⟩ := (matches_digits_iff (n := 2)).mp h₂
    obtain ⟨x, c, hx, hc, rfl⟩ := (matches_cons_digits_iff @isDigit_of_isVersionDigit (n := 1)).mp h₃
    obtain ⟨y, d, hy, hd, rfl⟩ := (matches_cons_digits_iff @isDigit_of_isVariantDigit (n := 1)).mp h₄
    obtain ⟨e, he, rfl⟩ := (matches_digits_iff (n := 6)).mp h₅
    refine ⟨[a, b, x :: c, y :: d, e], ?_, (mark_flatten_eq_self_iff ha hb hc).mpr ⟨hx, hy⟩, rfl⟩
    exact map_length_eq_slices_iff.mpr ⟨a, b, x, c, y, d, e, rfl, ha, hb, hc, hd, he⟩
  · rintro ⟨ds, hds, hmark, rfl⟩
    obtain ⟨a, b, x, c, y, d, e, rfl, ha, hb, hc, hd, he⟩ := map_length_eq_slices_iff.mp hds
    obtain ⟨hx, hy⟩ := (mark_flatten_eq_self_iff ha hb hc).mp hmark
    exact .cons ((matches_digits_iff (n := 4)).mpr ⟨a, ha, rfl⟩) <|
      .cons ((matches_digits_iff (n := 2)).mpr ⟨b, hb, rfl⟩) <|
      .cons ((matches_cons_digits_iff @isDigit_of_isVersionDigit (n := 1)).mpr ⟨x, c, hx, hc, rfl⟩) <|
      .cons ((matches_cons_digits_iff @isDigit_of_isVariantDigit (n := 1)).mpr ⟨y, d, hy, hd, rfl⟩) <|
      .cons ((matches_digits_iff (n := 6)).mpr ⟨e, he, rfl⟩) .nil

/-- What fits the pattern shows marked octets. -/
theorem matches_pattern_iff : Matches pattern u ↔ ∃ m, m.length = size ∧ mark m = m ∧ u = format m := by
  rw [pattern_eq, matches_intercalate_iff]
  constructor
  · rintro ⟨parts, h, rfl⟩
    obtain ⟨ds, hds, hmark, rfl⟩ := forall₂_matches_groupPatterns_iff.mp h
    refine ⟨ds.flatten, ?_, hmark, (format_flatten hds).symm⟩
    rw [List.length_flatten, hds]
    rfl
  · rintro ⟨m, hm, hmark, rfl⟩
    obtain ⟨ds, hds, rfl⟩ := exists_slices hm
    exact ⟨ds.map Hex.encode, forall₂_matches_groupPatterns_iff.mpr ⟨ds, hds, hmark, rfl⟩, format_flatten hds⟩

/-- The well-formed texts are those of marked octets, and the same with a line feed behind. -/
theorem isWellFormed_iff_exists_format :
    isWellFormed t = true ↔ ∃ m, m.length = size ∧ mark m = m ∧ (t = format m ∨ t = format m ++ "\n") := by
  rw [isWellFormed, fits_iff]
  constructor
  · rintro ⟨u, hu, ht⟩
    obtain ⟨m, hm, hmark, rfl⟩ := matches_pattern_iff.mp hu
    exact ⟨m, hm, hmark, ht⟩
  · rintro ⟨m, hm, hmark, ht⟩
    exact ⟨format m, matches_pattern_iff.mpr ⟨m, hm, hmark, rfl⟩, ht⟩

end CanonStore.Identifier
