import CanonStore.Binary64.Shortest
import CanonStore.Proofs.Numeral
import Mathlib.Tactic.NormNum

/-!
# Rounding of decimals

Rounding depends on the quotient only, not on how it is written (`nearest_mul`), so a decimal may move
zeros between its digits and its exponent (`ofDecimal_mul_pow`). A quotient that is a magnitude
rounds to its own place (`nearest_scaled`). Together they give the main statement:
`ofDecimal_shortest`, the decimal that is selected for a number reads back to that number.
-/

namespace CanonStore.Binary64

/-- A power in the spelling of the definitions, whose large exponents are not to be evaluated. -/
theorem natPow_pos (b n : Nat) (hb : 0 < b) : 0 < Nat.pow b n := Nat.pow_pos hb

/-! ## Rounding a quotient -/

/-- Only the value of a quotient matters for rounding it. -/
theorem roundQuotient_mul (num den : Nat) {k : Nat} (hk : 0 < k) :
    roundQuotient (num * k) (den * k) = roundQuotient num den := by
  have hlow : 2 * (num % den * k) < den * k ↔ 2 * (num % den) < den := by
    rw [← Nat.mul_assoc, Nat.mul_lt_mul_right hk]
  have hhigh : den * k < 2 * (num % den * k) ↔ den < 2 * (num % den) := by
    rw [← Nat.mul_assoc, Nat.mul_lt_mul_right hk]
  simp only [roundQuotient, Nat.mul_div_mul_right _ _ hk, Nat.mul_mod_mul_right, hlow, hhigh]

/-- A whole multiple is not rounded. -/
theorem roundQuotient_exact (n : Nat) {den : Nat} (hden : 0 < den) :
    roundQuotient (n * den) den = n := by
  simp [roundQuotient, Nat.mul_div_cancel _ hden, hden]

theorem nearest_mul (num den : Nat) {k : Nat} (hk : 0 < k) :
    nearest (num * k) (den * k) = nearest num den := by
  have hnum : num * k * scaledOne = num * scaledOne * k := Nat.mul_right_comm ..
  have hden : ∀ b, den * k * Nat.pow 2 b = den * Nat.pow 2 b * k := fun b => Nat.mul_right_comm ..
  simp only [nearest, hnum, hden, Nat.mul_div_mul_right _ _ hk, roundQuotient_mul _ _ hk]

theorem ofQuotient_mul (negative : Bool) (num den : Nat) {k : Nat} (hk : 0 < k) :
    ofQuotient negative (num * k) (den * k) = ofQuotient negative num den := by
  rw [ofQuotient, nearest_mul num den hk, ofQuotient]

/-! ## Magnitudes -/

/-- The significand fills its 53 bits, except in the lowest binade. -/
theorem significand_lt (place : Nat) : significand place < 2 * binadeSize := by
  unfold significand binade binadeSize
  omega

theorem binadeSize_le_significand {place : Nat} (h : binade place ≠ 0) :
    binadeSize ≤ significand place := by
  unfold significand binade binadeSize at *
  omega

theorem place_eq (place : Nat) : binade place * binadeSize + significand place = place := by
  unfold significand binade binadeSize
  omega

theorem scaled_ne_zero {place : Nat} (h : place ≠ 0) : scaled place ≠ 0 := by
  have hsig : significand place ≠ 0 := by
    unfold significand binade binadeSize
    omega
  exact Nat.mul_ne_zero hsig (Nat.pow_pos (by decide)).ne'

/-- The leading bit of a magnitude tells its binade. -/
theorem log2_scaled {place : Nat} (h : place ≠ 0) : (scaled place).log2 - 52 = binade place := by
  have hne := scaled_ne_zero h
  -- The significand has 53 bits, or fewer in the lowest binade, where the difference is cut off at zero.
  have hlt : (scaled place).log2 < 53 + binade place := by
    rw [Nat.log2_lt hne, pow_add]
    exact Nat.mul_lt_mul_of_pos_right (significand_lt place) (Nat.pow_pos (by decide))
  by_cases hb : binade place = 0
  · omega
  · have hle : 52 + binade place ≤ (scaled place).log2 := by
      rw [Nat.le_log2 hne, pow_add]
      exact Nat.mul_le_mul_right _ (binadeSize_le_significand hb)
    omega

theorem scaledOne_pos : 0 < scaledOne := natPow_pos 2 1074 (by decide)

/-- The quotient that is a magnitude rounds to its place, however it is written. -/
theorem nearest_scaled {place den : Nat} (h : place ≠ 0) (hden : 0 < den) :
    nearest (scaled place * den) (scaledOne * den) = place := by
  have hone := scaledOne_pos
  have hnearest : nearest (scaled place) scaledOne = place := by
    have hpow : 0 < scaledOne * Nat.pow 2 (binade place) := Nat.mul_pos hone (Nat.pow_pos (by decide))
    have hexact : scaled place * scaledOne
        = significand place * (scaledOne * Nat.pow 2 (binade place)) := by
      rw [scaled, Nat.mul_assoc, Nat.mul_comm scaledOne]
    simp only [nearest, Nat.mul_div_cancel _ hone, log2_scaled h]
    rw [hexact, roundQuotient_exact _ hpow, place_eq]
  rw [nearest_mul _ _ hden, hnearest]

/-! ## Decimals -/

/-- Zeros may move from the digits of a decimal into its exponent. -/
theorem ofDecimal_mul_pow (negative : Bool) (digits k : Nat) (exponent : Int) :
    ofDecimal negative (digits * 10 ^ k) exponent = ofDecimal negative digits (exponent + k) := by
  by_cases hd : digits = 0
  · simp [ofDecimal, hd]
  · have hpos : ∀ n, 0 < 10 ^ n := fun n => Nat.pow_pos (by decide)
    have hne : digits * 10 ^ k ≠ 0 := Nat.mul_ne_zero hd (hpos k).ne'
    have hleading : exponent + (Numeral.length digits + k : Nat)
        = exponent + k + Numeral.length digits := by omega
    simp only [ofDecimal, hd, hne, if_false, Numeral.length_mul_pow hd, hleading, Nat.pow_eq]
    -- What is left is the quotient itself: its exponent may change sign.
    split
    · rfl
    split
    · rfl
    by_cases he : 0 ≤ exponent
    · have hsum : (exponent + k).toNat = k + exponent.toNat := by omega
      rw [if_pos he, if_pos (by omega), hsum, pow_add, Nat.mul_assoc]
    · rw [if_neg he]
      by_cases hek : 0 ≤ exponent + k
      · have hk : k = (exponent + k).toNat + (-exponent).toNat := by omega
        have hnum : digits * 10 ^ k
            = digits * 10 ^ (exponent + k).toNat * 10 ^ (-exponent).toNat := by
          rw [Nat.mul_assoc, ← pow_add, ← hk]
        have hmul := ofQuotient_mul negative (digits * 10 ^ (exponent + k).toNat) 1 (hpos (-exponent).toNat)
        rw [if_pos hek, hnum, ← hmul, Nat.one_mul]
      · have hden : (-exponent).toNat = (-(exponent + k)).toNat + k := by omega
        rw [if_neg hek, hden, pow_add, ofQuotient_mul _ _ _ (hpos k)]

/-- The sign of a decimal is that of the number it is rounded to. -/
theorem ofDecimal_finite {s : Bool} {place : Fin magnitudeCount} {d : Nat} {e : Int}
    (h : ofDecimal false d e = .finite s place) (negative : Bool) :
    ofDecimal negative d e = .finite negative place := by
  have hplace : ∀ {num den}, ofQuotient false num den = .finite s place →
      ofQuotient negative num den = .finite negative place := by
    intro num den hq
    simp only [ofQuotient, atPlace] at hq ⊢
    split at hq
    · next hlt => rw [dif_pos hlt, (Binary64.finite.inj hq).2]
    · exact absurd hq (by simp)
  -- Which branch is taken does not depend on the sign, so both sides take the same one.
  simp only [ofDecimal] at h ⊢
  split
  · next hd => rw [if_pos hd] at h; rw [(Binary64.finite.inj h).2]
  · next hd =>
    rw [if_neg hd] at h
    split
    · next hl => rw [if_pos hl] at h; exact absurd h (by simp)
    · next hl =>
      rw [if_neg hl] at h
      split
      · next hs => rw [if_pos hs] at h; rw [(Binary64.finite.inj h).2]
      · next hs =>
        rw [if_neg hs] at h
        split
        · next he => rw [if_pos he] at h; exact hplace h
        · next he => rw [if_neg he] at h; exact hplace h

/-! ## The selected decimal -/

theorem ofDecimal_of_readsBack {place : Nat} {d : Decimal} (h : readsBack place d)
    (hlt : place < magnitudeCount) (negative : Bool) :
    ofDecimal negative d.digits d.exponent = .finite negative ⟨place, hlt⟩ := by
  unfold readsBack at h
  split at h
  · next s p hp =>
    have hval : p = ⟨place, hlt⟩ := Fin.ext (of_decide_eq_true h)
    exact ofDecimal_finite (hval ▸ hp) negative
  · exact absurd h (by simp)

/-- A magnitude lies below the end of its binade. -/
theorem scaled_lt {place b : Nat} (h : binade place ≤ b) : scaled place < 2 ^ 53 * 2 ^ b :=
  calc scaled place < 2 ^ 53 * 2 ^ binade place :=
        Nat.mul_lt_mul_of_pos_right (significand_lt place) (Nat.pow_pos (by decide))
    _ ≤ 2 ^ 53 * 2 ^ b := Nat.mul_le_mul_left _ (Nat.pow_le_pow_right (by decide) h)

/-- Finite magnitudes lie in the binades up to the last. -/
theorem binade_le {place : Nat} (h : place < magnitudeCount) : binade place ≤ 2045 := by
  unfold binade
  unfold magnitudeCount binadeSize at *
  omega

/-- The decimal `scaled place * 5 ^ n`, `n` places after the point, is the magnitude itself where the
magnitudes are counted in units of `2 ^ -n`. -/
theorem ofDecimal_scaled {place n : Nat} (hne : place ≠ 0) (h : place < magnitudeCount)
    (hone : scaledOne = Nat.pow 2 n)
    (hlow : n ≤ Numeral.length (scaled place * Nat.pow 5 n) + 400)
    (hhigh : Numeral.length (scaled place * Nat.pow 5 n) ≤ n + 400) (hn : 0 < n) :
    ofDecimal false (scaled place * Nat.pow 5 n) (-n) = .finite false ⟨place, h⟩ := by
  have hfive : 0 < Nat.pow 5 n := natPow_pos 5 n (by decide)
  have hd : scaled place * Nat.pow 5 n ≠ 0 := Nat.mul_ne_zero (scaled_ne_zero hne) hfive.ne'
  have hten : Nat.pow 10 n = scaledOne * Nat.pow 5 n := by
    rw [hone]
    exact Nat.mul_pow 2 5 n
  have hnat : (- -(n : Int)).toNat = n := by omega
  simp only [ofDecimal]
  rw [if_neg hd, if_neg (by omega), if_neg (by omega), if_neg (by omega), hnat, hten,
    ofQuotient, nearest_scaled hne hfive, atPlace, dif_pos h]

/-- The exact decimal of a magnitude is within the exponents that are rounded at all. -/
theorem length_scaled_mul {place : Nat} (hne : place ≠ 0) (h : place < magnitudeCount) :
    1074 ≤ Numeral.length (scaled place * Nat.pow 5 1074) + 400 ∧
      Numeral.length (scaled place * Nat.pow 5 1074) ≤ 1074 + 400 := by
  have hpos : 0 < scaled place := Nat.pos_of_ne_zero (scaled_ne_zero hne)
  -- Two closed comparisons bound all magnitudes: the power of five alone, and it times the end of the
  -- highest binade.
  have hlow : 10 ^ 673 ≤ Nat.pow 5 1074 := by decide +kernel
  have hhigh : 2 ^ 53 * 2 ^ 2045 * Nat.pow 5 1074 < 10 ^ 1474 := by decide +kernel
  have hlt : scaled place * Nat.pow 5 1074 < 10 ^ 1474 :=
    (Nat.mul_le_mul_right _ (scaled_lt (binade_le h)).le).trans_lt hhigh
  have hle : 10 ^ 673 ≤ scaled place * Nat.pow 5 1074 := hlow.trans (Nat.le_mul_of_pos_left _ hpos)
  have hshort := (Numeral.length_le_iff (by decide)).mpr hlt
  have hlong := mt (Numeral.length_le_iff (by decide)).mp (Nat.not_lt.mpr hle)
  omega

/-- The exact decimal of a magnitude reads back. -/
theorem readsBack_exactDecimal {place : Nat} (hne : place ≠ 0) (h : place < magnitudeCount) :
    readsBack place (exactDecimal place) := by
  obtain ⟨hlow, hhigh⟩ := length_scaled_mul hne h
  have hread : ofDecimal false (exactDecimal place).digits (exactDecimal place).exponent
      = .finite false ⟨place, h⟩ :=
    ofDecimal_scaled hne h rfl hlow hhigh (by decide)
  rw [readsBack, hread]
  simp

/-- Candidates are chosen because they read back. -/
theorem readsBack_of_candidate {place s length count : Nat} {d : Decimal}
    (h : candidate? place s length count = some d) : readsBack place d := by
  simp only [candidate?] at h
  split at h
  · next hb _ => rwa [← Option.some.inj h]
  · next _ ha => rwa [← Option.some.inj h]
  · next hb ha =>
    split at h
    · rwa [← Option.some.inj h]
    · split at h
      · rwa [← Option.some.inj h]
      · split at h <;> rwa [← Option.some.inj h]
  · exact absurd h (by simp)

/-- The shortest decimal of a magnitude reads back. -/
theorem readsBack_shortest {place : Nat} (hne : place ≠ 0) (h : place < magnitudeCount) :
    readsBack place (shortest place) := by
  rw [shortest, if_neg hne]
  simp only []
  -- What the search finds has been read back; if it finds nothing, the exact decimal is taken.
  cases hfound : (List.range 17).findSome? fun i =>
      candidate? place (decimalScaled place) (Numeral.length (decimalScaled place)) (i + 1) with
  | none => exact readsBack_exactDecimal hne h
  | some d =>
    obtain ⟨i, -, hi⟩ := List.exists_of_findSome?_eq_some hfound
    exact readsBack_of_candidate hi

/-- The decimal that is selected for a number reads back to that number, with either sign. -/
theorem ofDecimal_shortest {place : Nat} (hne : place ≠ 0) (h : place < magnitudeCount)
    (negative : Bool) :
    ofDecimal negative (shortest place).digits (shortest place).exponent
      = .finite negative ⟨place, h⟩ :=
  ofDecimal_of_readsBack (readsBack_shortest hne h) h negative

/-- The selected decimal of a number that is not zero has a digit that is not zero. -/
theorem digits_shortest_ne_zero {place : Nat} (hne : place ≠ 0) (h : place < magnitudeCount) :
    (shortest place).digits ≠ 0 := by
  intro hd
  have hread := ofDecimal_shortest hne h false
  rw [hd, ofDecimal, if_pos rfl] at hread
  exact hne (congrArg Fin.val (Binary64.finite.inj hread).2).symm

end CanonStore.Binary64
