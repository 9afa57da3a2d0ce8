import CanonStore.Proofs.Numeral
import CanonStore.Proofs.Text.Utf8

/-!
# Octets that are UTF-8

What is read as UTF-8 is what the text that was read would be written as. The reader that lets no
surrogate pass therefore takes exactly the octets of texts (`decode_eq_ok_iff`); the other one takes
octets that are none only if it finds a surrogate in them (`exists_surrogate_of_decode`). There is one
lemma for each length of a sequence, which puts the bits together and takes them apart again.
-/

namespace CanonStore.Utf8

/-- The octets are those of a text. -/
def IsUtf8 (bytes : Bytes) : Prop := ∃ t, encode t = .ok bytes

/-! ## Sequences -/

section Sequences

variable {a b c d : UInt8}

theorem isContinuation_iff (b : UInt8) : isContinuation b ↔ 0x80 ≤ b.toNat ∧ b.toNat ≤ 0xBF := by
  rw [isContinuation, Bool.and_eq_true, decide_eq_true_eq, decide_eq_true_eq]

theorem bits_of_isContinuation (h : isContinuation b) : bits b = b.toNat - 0x80 := by
  rw [isContinuation_iff] at h
  rw [bits]
  omega

/-- An octet that starts a sequence of several is at least `0xC2` and at most `0xF4`. -/
theorem start_bounds (h : ¬ (a.toNat < 0xC2 || 0xF4 < a.toNat)) : 0xC2 ≤ a.toNat ∧ a.toNat ≤ 0xF4 := by
  simp only [Bool.or_eq_true, decide_eq_true_eq] at h
  omega

/-- The second octet of three is no smaller than in the shortest form. -/
theorem second_of_three {pass : Bool} (h : isSecondOfThree pass a b) :
    isContinuation b ∧ (a.toNat = 0xE0 → 0xA0 ≤ b.toNat) ∧
      (a.toNat = 0xED → 0xA0 ≤ b.toNat → pass = true) := by
  have hnat : ∀ n : UInt8, a = n ↔ a.toNat = n.toNat := fun n => UInt8.toNat_inj.symm
  simp only [isSecondOfThree, hnat, Bool.and_eq_true, Bool.not_eq_true', Bool.and_eq_false_iff,
    decide_eq_false_iff_not, Bool.not_eq_false'] at h
  obtain ⟨⟨hb, hshort⟩, hsurrogate⟩ := h
  refine ⟨hb, ?_, ?_⟩
  · intro ha
    exact Nat.le_of_not_lt (hshort.resolve_left fun hne => hne ha)
  · intro ha hge
    rcases hsurrogate with (hne | hne) | hpass
    · exact absurd ha hne
    · exact absurd hge hne
    · exact hpass

/-- The second octet of four is no smaller than in the shortest form and stays in the code space. -/
theorem second_of_four (h : isSecondOfFour a b) :
    isContinuation b ∧ (a.toNat = 0xF0 → 0x90 ≤ b.toNat) ∧ (a.toNat = 0xF4 → b.toNat < 0x90) := by
  have hnat : ∀ n : UInt8, a = n ↔ a.toNat = n.toNat := fun n => UInt8.toNat_inj.symm
  simp only [isSecondOfFour, hnat, Bool.and_eq_true, Bool.not_eq_true', Bool.and_eq_false_iff,
    decide_eq_false_iff_not] at h
  obtain ⟨⟨hb, hshort⟩, hlarge⟩ := h
  refine ⟨hb, ?_, ?_⟩
  · intro ha
    exact Nat.le_of_not_lt (hshort.resolve_left fun hne => hne ha)
  · intro ha
    exact Nat.lt_of_not_le (hlarge.resolve_left fun hne => hne ha)

theorem octet_of_eq {n : Nat} (h : n = a.toNat) : UInt8.ofNat n = a := by rw [h, UInt8.ofNat_toNat]

theorem encodeOne_one (ha : a.toNat < 0x80) : encodeOne (CodePoint.ofByte a) = [a] := by
  have hval : (CodePoint.ofByte a).val = a.toNat := CodePoint.val_ofNat (by omega)
  rw [encodeOne, hval, if_pos ha, UInt8.ofNat_toNat]

theorem encodeOne_two (ha : 0xC2 ≤ a.toNat ∧ a.toNat < 0xE0) (hb : isContinuation b) :
    encodeOne (CodePoint.ofNat ((a.toNat - 0xC0) * 0x40 + bits b)) = [a, b] := by
  rw [bits_of_isContinuation hb]
  rw [isContinuation_iff] at hb
  rw [encodeOne, CodePoint.val_ofNat (by omega), if_neg (by omega), if_pos (by omega)]
  refine congrArg₂ List.cons (octet_of_eq (by omega)) ?_
  exact congrArg₂ List.cons (octet_of_eq (by omega)) rfl

theorem encodeOne_three {pass : Bool} (ha : 0xE0 ≤ a.toNat ∧ a.toNat < 0xF0)
    (hb : isSecondOfThree pass a b) (hc : isContinuation c) :
    encodeOne (CodePoint.ofNat ((a.toNat - 0xE0) * 0x1000 + bits b * 0x40 + bits c)) = [a, b, c] := by
  obtain ⟨hb, hshort, _⟩ := second_of_three hb
  rw [bits_of_isContinuation hb, bits_of_isContinuation hc]
  rw [isContinuation_iff] at hb hc
  rw [encodeOne, CodePoint.val_ofNat (by omega), if_neg (by omega), if_neg (by omega), if_pos (by omega)]
  refine congrArg₂ List.cons (octet_of_eq (by omega)) ?_
  refine congrArg₂ List.cons (octet_of_eq (by omega)) ?_
  exact congrArg₂ List.cons (octet_of_eq (by omega)) rfl

theorem encodeOne_four (ha : 0xF0 ≤ a.toNat ∧ a.toNat ≤ 0xF4) (hb : isSecondOfFour a b)
    (hc : isContinuation c) (hd : isContinuation d) :
    encodeOne (CodePoint.ofNat ((a.toNat - 0xF0) * 0x40000 + bits b * 0x1000 + bits c * 0x40 + bits d))
      = [a, b, c, d] := by
  obtain ⟨hb, hshort, hlarge⟩ := second_of_four hb
  rw [bits_of_isContinuation hb, bits_of_isContinuation hc, bits_of_isContinuation hd]
  rw [isContinuation_iff] at hb hc hd
  rw [encodeOne, CodePoint.val_ofNat (by omega), if_neg (by omega), if_neg (by omega), if_neg (by omega)]
  refine congrArg₂ List.cons (octet_of_eq (by omega)) ?_
  refine congrArg₂ List.cons (octet_of_eq (by omega)) ?_
  refine congrArg₂ List.cons (octet_of_eq (by omega)) ?_
  exact congrArg₂ List.cons (octet_of_eq (by omega)) rfl

/-- Only three octets that a reader lets pass on purpose are those of a surrogate. -/
theorem isSurrogate_three {pass : Bool} (ha : 0xE0 ≤ a.toNat ∧ a.toNat < 0xF0)
    (hb : isSecondOfThree pass a b) (hc : isContinuation c)
    (hs : (CodePoint.ofNat ((a.toNat - 0xE0) * 0x1000 + bits b * 0x40 + bits c)).isSurrogate) :
    pass = true := by
  obtain ⟨hb, _, hsurrogate⟩ := second_of_three hb
  rw [bits_of_isContinuation hb, bits_of_isContinuation hc] at hs
  rw [isContinuation_iff] at hb hc
  rw [isSurrogate_iff, CodePoint.val_ofNat (by omega)] at hs
  exact hsurrogate (by omega) (by omega)

theorem isSurrogate_of_lt {n : Nat} (h : n < 0xD800) : (CodePoint.ofNat n).isSurrogate = false := by
  rw [Bool.eq_false_iff, ne_eq, isSurrogate_iff, CodePoint.val_ofNat (by omega)]
  omega

theorem isSurrogate_of_ge {n : Nat} (h : 0x10000 ≤ n) (hlt : n < 0x110000) :
    (CodePoint.ofNat n).isSurrogate = false := by
  rw [Bool.eq_false_iff, ne_eq, isSurrogate_iff, CodePoint.val_ofNat hlt]
  omega

end Sequences

/-! ## Texts -/

/-- What is read is written as the octets that were read, and a reader that lets no surrogate pass finds
none. -/
theorem encodeAny_of_decodeFrom {surrogates : Bool} {position : Nat} {bytes : Bytes} {t : Text}
    (h : decodeFrom surrogates position bytes = .ok t) :
    encodeAny t = bytes ∧ (surrogates = false → ∀ c ∈ t, c.isSurrogate = false) := by
  -- One code point in front, whose octets and the rest make up all octets.
  have hcons : ∀ {c : CodePoint} {octets rest : Bytes} {x : Except DecodingFault Text} {t : Text},
      x.map (c :: ·) = .ok t → encodeOne c = octets →
      (surrogates = false → c.isSurrogate = false) →
      (∀ {u : Text}, x = .ok u →
        encodeAny u = rest ∧ (surrogates = false → ∀ d ∈ u, d.isSurrogate = false)) →
      encodeAny t = octets ++ rest ∧ (surrogates = false → ∀ d ∈ t, d.isSurrogate = false) := by
    intro c octets rest x t hx hc hclean ih
    obtain ⟨u, hu, rfl⟩ := map_eq_ok_iff.mp hx
    obtain ⟨hrest, hall⟩ := ih hu
    refine ⟨?_, fun hs => List.forall_mem_cons.mpr ⟨hclean hs, hall hs⟩⟩
    rw [encodeAny, List.flatMap_cons, hc, ← hrest, encodeAny]
  fun_induction decodeFrom surrogates position bytes generalizing t with
  | case1 =>
    cases h
    exact ⟨rfl, fun _ => List.forall_mem_nil _⟩
  | case2 position a rest ha ih =>
    exact hcons h (encodeOne_one ha) (fun _ => isSurrogate_of_lt (by omega)) ih
  | case5 position a _ hstart ha b rest hb ih =>
    have hbounds := start_bounds hstart
    exact hcons h (encodeOne_two ⟨hbounds.1, ha⟩ hb) (fun _ => isSurrogate_of_lt (by rw [bits]; omega)) ih
  | case10 position a _ hstart hlow ha b c rest hc hb ih =>
    rw [Bool.not_eq_true', Bool.not_eq_false] at hb
    have hbounds : 0xE0 ≤ a.toNat ∧ a.toNat < 0xF0 := ⟨Nat.le_of_not_lt hlow, ha⟩
    apply hcons h (encodeOne_three hbounds hb hc) _ ih
    intro hs
    rw [Bool.eq_false_iff]
    intro hsurrogate
    have hpass := isSurrogate_three hbounds hb hc hsurrogate
    rw [hs] at hpass
    cases hpass
  | case17 position a _ hstart hlow ha b hb c hc d rest hd ih =>
    rw [Bool.not_eq_true', Bool.not_eq_false] at hb hc
    have hbounds : 0xF0 ≤ a.toNat ∧ a.toNat ≤ 0xF4 := ⟨Nat.le_of_not_lt ha, (start_bounds hstart).2⟩
    obtain ⟨hsecond, hshort, hlarge⟩ := second_of_four hb
    rw [isContinuation_iff] at hsecond
    refine hcons h (encodeOne_four hbounds hb hc hd) (fun _ => isSurrogate_of_ge ?_ ?_) ih
    · rw [bits]
      omega
    · simp only [bits]
      omega
  | _ => cases h

/-- A reader that lets no surrogate pass takes exactly the octets of texts. -/
theorem decode_eq_ok_iff {bytes : Bytes} {t : Text} : decode false bytes = .ok t ↔ encode t = .ok bytes := by
  constructor
  · intro h
    obtain ⟨hbytes, hall⟩ := encodeAny_of_decodeFrom h
    exact (encode_eq_ok_iff t bytes).mpr ⟨hall rfl, hbytes.symm⟩
  · exact fun h => decode_of_encode h false

/-- Octets that are read, but are no UTF-8, hold a surrogate. -/
theorem exists_surrogate_of_decode {surrogates : Bool} {bytes : Bytes} {t : Text} (hne : ¬ IsUtf8 bytes)
    (h : decode surrogates bytes = .ok t) : ∃ c ∈ t, c.isSurrogate := by
  by_contra hall
  simp only [not_exists, not_and, Bool.not_eq_true] at hall
  exact hne ⟨t, (encode_eq_ok_iff t bytes).mpr ⟨hall, (encodeAny_of_decodeFrom h).1.symm⟩⟩

end CanonStore.Utf8
