import CanonStore.Hex
import CanonStore.Proofs.Json.Quoted
import CanonStore.Proofs.Parts
import CanonStore.Proofs.Text.Pieces

/-!
# Hexadecimal text read back

Octets are written with two lower-case digits each, so that their parts are parts of the text, and every row of
an even number of such digits spells octets (`exists_encode`). The reader takes the texts that spell octets in
pairs of digits (`Spells`, `decode_eq_ok_iff`): the letters may be of either case, and there may be blanks around
the pairs. Main statement: `unprefixed_eq_ok_iff_spells`, for texts with the mark `0x`.
-/

namespace CanonStore

namespace CodePoint

variable {c : CodePoint} {n : Nat}

/-- The characters of the digits lie in three ranges: the figures, and the letters in both cases. -/
theorem val_of_hexValue? (h : c.hexValue? = some n) :
    0x30 ≤ c.val ∧ c.val ≤ 0x39 ∨ 0x41 ≤ c.val ∧ c.val ≤ 0x46 ∨ 0x61 ≤ c.val ∧ c.val ≤ 0x66 := by
  unfold hexValue? isDigit at h
  split at h
  · next hdigit => simp only [Bool.and_eq_true, decide_eq_true_eq] at hdigit; omega
  · split at h
    · next hlower => simp only [Bool.and_eq_true, decide_eq_true_eq] at hlower; omega
    · split at h
      · next hupper => simp only [Bool.and_eq_true, decide_eq_true_eq] at hupper; omega
      · cases h

/-- Capital letters are digits of the same value. -/
theorem hexValue?_toUpperAscii_ofHexValue : ∀ d < 16, (ofHexValue d).toUpperAscii.hexValue? = some d := by decide

/-- The digits that are written are in lower case. -/
theorem toLowerAscii_ofHexValue : ∀ d < 16, (ofHexValue d).toLowerAscii = ofHexValue d := by decide

/-- A code point is its lower-case letter, or the capital letter of that one. -/
theorem eq_or_eq_toUpperAscii (c : CodePoint) : c = c.toLowerAscii ∨ c = c.toLowerAscii.toUpperAscii := by
  by_cases hupper : c.isUpper = true
  · right
    have hrange : 0x41 ≤ c.val ∧ c.val ≤ 0x5A := by
      simpa only [isUpper, Bool.and_eq_true, decide_eq_true_eq] using hupper
    have hval : (ofNat (c.val + 32)).val = c.val + 32 := Nat.mod_eq_of_lt (by omega)
    have hlower : (ofNat (c.val + 32)).isLower = true := by
      simp only [isLower, hval, Bool.and_eq_true, decide_eq_true_eq]
      omega
    rw [toLowerAscii, if_pos hupper, toUpperAscii, if_pos hlower, hval, Nat.add_sub_cancel]
    exact (Fin.ofNat_val_eq_self c).symm
  · left
    rw [toLowerAscii, if_neg hupper]

/-- The value of a digit of either case is that of the lower-case one. -/
theorem toLowerAscii_of_hexValue? (h : c.hexValue? = some n) : n < 16 ∧ c.toLowerAscii = ofHexValue n := by
  have hdigits : ∀ v < 0x67, ((ofNat v).hexValue?.all fun k => k < 16 && (ofNat v).toLowerAscii = ofHexValue k) := by
    decide
  have hc : ofNat c.val = c := Fin.ofNat_val_eq_self c
  have hval := hdigits c.val (by have := val_of_hexValue? h; omega)
  rw [hc, h, Option.all_some, Bool.and_eq_true, decide_eq_true_eq, decide_eq_true_eq] at hval
  exact hval

/-- A digit of either case has its value. -/
theorem hexValue?_of_toLowerAscii (hn : n < 16) (h : c.toLowerAscii = ofHexValue n) : c.hexValue? = some n := by
  rcases eq_or_eq_toUpperAscii c with hc | hc
  · rw [hc, h]
    exact hexValue?_ofHexValue n hn
  · rw [hc, h]
    exact hexValue?_toUpperAscii_ofHexValue n hn

end CodePoint

namespace Hex

variable {c : CodePoint} {t : Text} {d : Bytes} {n : Nat}

/-! ## Octets written -/

@[simp]
theorem encode_cons (b : UInt8) (d : Bytes) :
    encode (b :: d) = CodePoint.ofHexValue (b.toNat / 16) :: CodePoint.ofHexValue (b.toNat % 16) :: encode d := rfl

/-- Every octet is written as two digits. -/
@[simp]
theorem length_encode (d : Bytes) : (encode d).length = 2 * d.length := by
  induction d with
  | nil => rfl
  | cons b d ih =>
    simp only [encode_cons, List.length_cons, ih]
    omega

theorem encode_append (d e : Bytes) : encode (d ++ e) = encode d ++ encode e := List.flatMap_append

/-- Octets can be written part by part. -/
theorem encode_flatten (ds : List Bytes) : encode ds.flatten = (ds.map encode).flatten := by
  induction ds with
  | nil => rfl
  | cons d ds ih => rw [List.flatten_cons, encode_append, ih, List.map_cons, List.flatten_cons]

/-- The digits of the first octets are the first digits. -/
theorem take_encode (n : Nat) (d : Bytes) : (encode d).take (2 * n) = encode (d.take n) := by
  have hd : encode d = encode (d.take n) ++ encode (d.drop n) := by rw [← encode_append, List.take_append_drop]
  by_cases hn : n ≤ d.length
  · rw [hd, List.take_left' (by simp [hn])]
  · rw [List.take_of_length_le (by simp; omega), List.take_of_length_le (by omega)]

/-- Leaving out octets leaves out two digits for each. -/
theorem drop_encode (n : Nat) (d : Bytes) : (encode d).drop (2 * n) = encode (d.drop n) := by
  have hd : encode (d.take n) ++ (encode d).drop (2 * n) = encode (d.take n) ++ encode (d.drop n) := by
    rw [← encode_append, ← take_encode, List.take_append_drop, List.take_append_drop]
  exact List.append_cancel_left hd

/-- What holds of the sixteen digits holds of all that is written. -/
theorem forall_mem_encode {P : CodePoint → Prop} (hP : ∀ n < 16, P (CodePoint.ofHexValue n)) (d : Bytes) :
    ∀ c ∈ encode d, P c := by
  intro c hc
  obtain ⟨b, _, hc⟩ := List.mem_flatMap.mp hc
  have hb : b.toNat < 256 := b.toNat_lt
  rw [pair, List.mem_cons, List.mem_singleton] at hc
  rcases hc with rfl | rfl
  · exact hP _ (by omega)
  · exact hP _ (by omega)

/-- The digits of the octet that two digits make. -/
theorem octet_of_digits {i j : Nat} (hi : i < 16) (hj : j < 16) :
    (UInt8.ofNat (16 * i + j)).toNat / 16 = i ∧ (UInt8.ofNat (16 * i + j)).toNat % 16 = j := by
  have hoctet : (UInt8.ofNat (16 * i + j)).toNat = 16 * i + j := by
    simp only [UInt8.toNat_ofNat']
    omega
  omega

/-- Digits in pairs spell octets. -/
theorem exists_encode (h : ∀ c ∈ t, ∃ k < 16, c = CodePoint.ofHexValue k) (hlength : t.length = 2 * n) :
    ∃ d : Bytes, d.length = n ∧ encode d = t := by
  induction n generalizing t with
  | zero =>
    obtain rfl := List.length_eq_zero_iff.mp hlength
    exact ⟨[], rfl, rfl⟩
  | succ n ih =>
    match t, h, hlength with
    | high :: low :: rest, h, hlength =>
      simp only [List.forall_mem_cons] at h
      obtain ⟨⟨i, hi, rfl⟩, ⟨j, hj, rfl⟩, hrest⟩ := h
      obtain ⟨d, hd, rfl⟩ := ih hrest (by simp only [List.length_cons] at hlength; omega)
      refine ⟨UInt8.ofNat (16 * i + j) :: d, by rw [List.length_cons, hd], ?_⟩
      rw [encode_cons, (octet_of_digits hi hj).1, (octet_of_digits hi hj).2]

/-- What is written is in lower case. -/
theorem map_toLowerAscii_encode (d : Bytes) : (encode d).map CodePoint.toLowerAscii = encode d := by
  have hlower : ∀ c ∈ encode d, c.toLowerAscii = c := forall_mem_encode CodePoint.toLowerAscii_ofHexValue d
  rw [List.map_congr_left hlower, List.map_id']

/-! ## Octets read -/

theorem isAscii_of_hexValue? (h : c.hexValue? = some n) : c.isAscii = true := by
  have hval := CodePoint.val_of_hexValue? h
  rw [CodePoint.isAscii, decide_eq_true_eq]
  omega

theorem isBlank_of_hexValue? (h : c.hexValue? = some n) : isBlank c = false := by
  have hval := CodePoint.val_of_hexValue? h
  rw [isBlank, Bool.or_eq_false_iff, Bool.and_eq_false_iff, decide_eq_false_iff_not, decide_eq_false_iff_not,
    decide_eq_false_iff_not]
  omega

theorem isAscii_of_isBlank (h : isBlank c = true) : c.isAscii = true := by
  simp only [isBlank, Bool.or_eq_true, Bool.and_eq_true, decide_eq_true_eq] at h
  rw [CodePoint.isAscii, decide_eq_true_eq]
  omega

/-- A pair of digits is the octet that they spell. -/
theorem pairs_cons {high low : CodePoint} {i j : Nat} (hhigh : high.hexValue? = some i)
    (hlow : low.hexValue? = some j) (position : Nat) (t : Text) :
    pairs position (high :: low :: t) =
      (pairs (position + 2) t).map fun bytes => UInt8.ofNat (16 * i + j) :: bytes := by
  rw [pairs, isBlank_of_hexValue? hhigh, hhigh]
  dsimp only
  rw [hlow]
  rfl

/-- The text spells octets: a pair of digits for each, in letters of either case, and blanks before, between and
behind the pairs. -/
inductive Spells : Text → Bytes → Prop
  | nil : Spells [] []
  | blank {c : CodePoint} {t : Text} {d : Bytes} (hc : isBlank c = true) (ht : Spells t d) : Spells (c :: t) d
  | pair {high low : CodePoint} {t : Text} {b : UInt8} {d : Bytes} (hhigh : high.hexValue? = some (b.toNat / 16))
      (hlow : low.hexValue? = some (b.toNat % 16)) (ht : Spells t d) : Spells (high :: low :: t) (b :: d)

/-- Digits and blanks are all that a spelling is made of. -/
theorem Spells.isAscii (h : Spells t d) : ∀ c ∈ t, c.isAscii = true := by
  induction h with
  | nil => exact List.forall_mem_nil _
  | blank hc _ ih => exact List.forall_mem_cons.mpr ⟨isAscii_of_isBlank hc, ih⟩
  | pair hhigh hlow _ ih =>
    rw [List.forall_mem_cons, List.forall_mem_cons]
    exact ⟨isAscii_of_hexValue? hhigh, isAscii_of_hexValue? hlow, ih⟩

/-- But for its blanks the text is what is written for the octets, in letters of either case. -/
theorem Spells.map_toLowerAscii (h : Spells t d) :
    (t.filter fun c => !isBlank c).map CodePoint.toLowerAscii = encode d := by
  induction h with
  | nil => rfl
  | @blank c t d hc _ ih => rwa [List.filter_cons_of_neg (by simp [hc])]
  | @pair high low t b d hhigh hlow _ ih =>
    rw [List.filter_cons_of_pos (by simp [isBlank_of_hexValue? hhigh]),
      List.filter_cons_of_pos (by simp [isBlank_of_hexValue? hlow]), List.map_cons, List.map_cons, ih, encode_cons,
      (CodePoint.toLowerAscii_of_hexValue? hhigh).2, (CodePoint.toLowerAscii_of_hexValue? hlow).2]

/-- A text that spells octets in either case, with the digits of its first octet. -/
theorem exists_digits {b : UInt8} (h : t.map CodePoint.toLowerAscii = encode (b :: d)) :
    ∃ high low rest, t = high :: low :: rest ∧ high.hexValue? = some (b.toNat / 16) ∧
      low.hexValue? = some (b.toNat % 16) ∧ rest.map CodePoint.toLowerAscii = encode d := by
  have hb : b.toNat < 256 := b.toNat_lt
  rw [encode_cons] at h
  obtain ⟨high, t', rfl, hhigh, h⟩ := List.map_eq_cons_iff.mp h
  obtain ⟨low, rest, rfl, hlow, h⟩ := List.map_eq_cons_iff.mp h
  exact ⟨high, low, rest, rfl, CodePoint.hexValue?_of_toLowerAscii (by omega) hhigh,
    CodePoint.hexValue?_of_toLowerAscii (by omega) hlow, h⟩

/-- Digits in letters of either case spell the octets that they are the digits of. -/
theorem spells_of_map_toLowerAscii (h : t.map CodePoint.toLowerAscii = encode d) : Spells t d := by
  induction d generalizing t with
  | nil =>
    obtain rfl := List.map_eq_nil_iff.mp h
    exact .nil
  | cons b d ih =>
    obtain ⟨high, low, rest, rfl, hhigh, hlow, hrest⟩ := exists_digits h
    exact .pair hhigh hlow (ih hrest)

/-- What a text spells is read. -/
theorem Spells.pairs_eq (h : Spells t d) (position : Nat) : pairs position t = .ok d := by
  induction h generalizing position with
  | nil => rfl
  | blank hc _ ih =>
    rw [pairs, if_pos hc]
    exact ih (position + 1)
  | @pair high low t b d hhigh hlow _ ih =>
    have hoctet : UInt8.ofNat (16 * (b.toNat / 16) + b.toNat % 16) = b := by
      rw [Nat.div_add_mod, UInt8.ofNat_toNat]
    rw [pairs_cons hhigh hlow, ih, hoctet]
    rfl

/-- What is read is what the text spells. -/
theorem spells_of_pairs {position : Nat} (h : pairs position t = .ok d) : Spells t d := by
  -- The reader goes on only past a blank (`case2`) and past a pair (`case6`).
  induction position, t using pairs.induct generalizing d with
  | case1 =>
    cases h
    exact .nil
  | case2 position c rest hblank ih =>
    rw [pairs, if_pos hblank] at h
    exact .blank hblank (ih h)
  | case3 position c rest hblank hnone =>
    rw [pairs, if_neg hblank, hnone] at h
    cases h
  | case4 position c hblank i hi =>
    rw [pairs, if_neg hblank, hi] at h
    cases h
  | case5 position high hblank i hi low rest hnone =>
    rw [pairs, if_neg hblank, hi] at h
    dsimp only at h
    rw [hnone] at h
    cases h
  | case6 position high hblank i hi low rest j hj ih =>
    rw [pairs_cons hi hj, map_eq_ok_iff] at h
    obtain ⟨bytes, hbytes, rfl⟩ := h
    obtain ⟨hhigh, hlow⟩ := octet_of_digits (CodePoint.toLowerAscii_of_hexValue? hi).1
      (CodePoint.toLowerAscii_of_hexValue? hj).1
    refine .pair ?_ ?_ (ih hbytes)
    · rw [hi, hhigh]
    · rw [hj, hlow]

/-- A text is read exactly if it spells octets, and then as these. -/
theorem decode_eq_ok_iff : decode t = .ok d ↔ Spells t d := by
  constructor
  · intro h
    unfold decode at h
    split at h
    · cases h
    · exact spells_of_pairs h
  · intro h
    have hascii : (t.findIdx? fun c => !c.isAscii) = none := by
      rw [List.findIdx?_eq_none_iff]
      intro c hc
      rw [h.isAscii c hc]
      rfl
    rw [decode, hascii]
    exact h.pairs_eq 0

/-- Octets are read back from the digits that spell them, in letters of either case. -/
theorem decode_of_map_toLowerAscii (h : t.map CodePoint.toLowerAscii = encode d) : decode t = .ok d :=
  decode_eq_ok_iff.mpr (spells_of_map_toLowerAscii h)

/-- What was written is read back. -/
theorem decode_encode (d : Bytes) : decode (encode d) = .ok d :=
  decode_of_map_toLowerAscii (map_toLowerAscii_encode d)

/-- No two sequences of octets are written alike. -/
theorem encode_injective : Function.Injective encode := by
  intro d e h
  have hd := decode_encode d
  rw [h, decode_encode e] at hd
  exact (Except.ok.inj hd).symm

/-! ## Without blanks -/

theorem filter_eq_self_of_isBlank (h : ∀ c ∈ t, isBlank c = false) : (t.filter fun c => !isBlank c) = t := by
  rw [List.filter_eq_self]
  intro c hc
  rw [h c hc]
  rfl

/-- Whatever is no blank in a spelling is a digit. -/
theorem Spells.isHexDigit (h : Spells t d) : ∀ c ∈ t, isBlank c = false → c.isHexDigit = true := by
  induction h with
  | nil => exact List.forall_mem_nil _
  | blank hc _ ih => exact List.forall_mem_cons.mpr ⟨fun hblank => absurd hblank (by simp [hc]), ih⟩
  | pair hhigh hlow _ ih =>
    rw [List.forall_mem_cons, List.forall_mem_cons, CodePoint.isHexDigit, CodePoint.isHexDigit, hhigh, hlow]
    exact ⟨fun _ => rfl, fun _ => rfl, ih⟩

/-- Digits in pairs spell octets, whatever the case of the letters is. -/
theorem exists_spells_iff (hblank : ∀ c ∈ t, isBlank c = false) :
    (∃ d, Spells t d) ↔ t.length % 2 = 0 ∧ ∀ c ∈ t, c.isHexDigit = true := by
  constructor
  · rintro ⟨d, h⟩
    have hlength := congrArg List.length h.map_toLowerAscii
    rw [filter_eq_self_of_isBlank hblank, List.length_map, length_encode] at hlength
    exact ⟨by omega, fun c hc => h.isHexDigit c hc (hblank c hc)⟩
  · rintro ⟨heven, hdigits⟩
    have hlower : ∀ c ∈ t.map CodePoint.toLowerAscii, ∃ k < 16, c = CodePoint.ofHexValue k := by
      intro c hc
      obtain ⟨a, ha, rfl⟩ := List.mem_map.mp hc
      obtain ⟨k, hk⟩ := Option.isSome_iff_exists.mp (hdigits a ha)
      exact ⟨k, CodePoint.toLowerAscii_of_hexValue? hk⟩
    obtain ⟨d, -, hd⟩ := exists_encode hlower (n := t.length / 2) (by rw [List.length_map]; omega)
    exact ⟨d, spells_of_map_toLowerAscii hd.symm⟩

/-! ## Marked text -/

/-- A text with the mark is read if after the mark an even number of characters spells octets. -/
theorem unprefixed_eq_ok_iff : unprefixed t = .ok d ↔
    ∃ digits, t = Text.ofString "0x" ++ digits ∧ digits.length % 2 = 0 ∧ Spells digits d := by
  unfold unprefixed
  constructor
  · intro h
    split at h
    · cases h
    · next digits hdigits =>
      split at h
      · cases h
      · next heven =>
        rw [mapError_eq_ok_iff, decode_eq_ok_iff] at h
        exact ⟨digits, Text.dropPrefix?_eq_some_iff.mp hdigits, not_not.mp heven, h⟩
  · rintro ⟨digits, rfl, heven, h⟩
    rw [Text.dropPrefix?_append]
    dsimp only
    rw [if_neg (not_not.mpr heven), mapError_eq_ok_iff, decode_eq_ok_iff]
    exact h

/-- What was written with the mark is read back. -/
theorem unprefixed_prefixed (d : Bytes) : unprefixed (prefixed d) = .ok d := by
  refine unprefixed_eq_ok_iff.mpr ⟨encode d, rfl, ?_, decode_eq_ok_iff.mp (decode_encode d)⟩
  rw [length_encode, Nat.mul_mod_right]

/-- The texts that are read are the mark and an even number of code points that spell octets; every other text
is refused. Without blanks these are the mark and an even number of digits. What was read is written as the text
in lower case, without its blanks. -/
theorem unprefixed_eq_ok_iff_spells (t : Text) :
    (∀ d, unprefixed t = .ok d ↔
        ∃ digits, t = Text.ofString "0x" ++ digits ∧ digits.length % 2 = 0 ∧ Spells digits d) ∧
      ((∃ fault, unprefixed t = .error fault) ↔
        ¬ ∃ digits d, t = Text.ofString "0x" ++ digits ∧ digits.length % 2 = 0 ∧ Spells digits d) ∧
      ((∀ c ∈ t, isBlank c = false) →
        ((∃ d, unprefixed t = .ok d) ↔
          ∃ digits, t = Text.ofString "0x" ++ digits ∧ digits.length % 2 = 0 ∧
            ∀ c ∈ digits, c.isHexDigit = true)) ∧
      ∀ d, unprefixed t = .ok d → prefixed d = (t.filter fun c => !isBlank c).map CodePoint.toLowerAscii := by
  refine ⟨fun d => unprefixed_eq_ok_iff, ?_, ?_, ?_⟩
  · -- A fault is nothing but the absence of octets.
    have hread : (∃ digits d, t = Text.ofString "0x" ++ digits ∧ digits.length % 2 = 0 ∧ Spells digits d) ↔
        ∃ d, unprefixed t = .ok d := by
      simp only [unprefixed_eq_ok_iff]
      exact exists_comm
    rw [hread]
    cases unprefixed t <;> simp
  · -- Without blanks an even number of digits is all that spelling octets takes.
    intro hblank
    simp only [unprefixed_eq_ok_iff]
    rw [exists_comm]
    apply exists_congr
    intro digits
    simp only [exists_and_left]
    constructor
    · rintro ⟨rfl, heven, hspells⟩
      have hdigits := (exists_spells_iff (List.forall_mem_append.mp hblank).2).mp hspells
      exact ⟨rfl, hdigits⟩
    · rintro ⟨rfl, heven, hdigits⟩
      exact ⟨rfl, heven, (exists_spells_iff (List.forall_mem_append.mp hblank).2).mpr ⟨heven, hdigits⟩⟩
  · intro d h
    obtain ⟨digits, rfl, -, hspells⟩ := unprefixed_eq_ok_iff.mp h
    rw [prefixed, ← hspells.map_toLowerAscii, List.filter_append, List.map_append]
    rfl

/-- Capital letters are read and written as small ones. -/
theorem unprefixed_capitals :
    (∀ c ∈ Text.ofString "0xAB", isBlank c = false) ∧ unprefixed "0xAB" = .ok [0xAB] ∧
      (∃ digits, Text.ofString "0xAB" = Text.ofString "0x" ++ digits ∧ digits.length % 2 = 0 ∧
        ∀ c ∈ digits, c.isHexDigit = true) ∧
      prefixed [0xAB] = Text.ofString "0xab" := by
  obtain ⟨-, -, hdigits, hlower⟩ := unprefixed_eq_ok_iff_spells "0xAB"
  have hall : ((Text.ofString "0xAB").all fun c => !isBlank c) = true := rfl
  have hblank : ∀ c ∈ Text.ofString "0xAB", isBlank c = false := by simpa using hall
  have hread : unprefixed "0xAB" = .ok [0xAB] := rfl
  exact ⟨hblank, hread, (hdigits hblank).mp ⟨_, hread⟩, hlower _ hread⟩

/-- Blanks are no digits, but a text with an even number of them is read, and written without them. -/
theorem unprefixed_blanks :
    unprefixed "0xab  " = .ok [0xAB] ∧ prefixed [0xAB] ≠ (Text.ofString "0xab  ").map CodePoint.toLowerAscii ∧
      ¬ ∃ digits, Text.ofString "0xab  " = Text.ofString "0x" ++ digits ∧ ∀ c ∈ digits, c.isHexDigit = true := by
  refine ⟨rfl, by decide, ?_⟩
  rintro ⟨digits, hdigits, h⟩
  have hcancel : Text.ofString "0x" ++ Text.ofString "ab  " = Text.ofString "0x" ++ digits := hdigits
  obtain rfl := List.append_cancel_left hcancel
  have hall : (Text.ofString "ab  ").all CodePoint.isHexDigit = true := List.all_eq_true.mpr h
  cases hall

end Hex

end CanonStore
