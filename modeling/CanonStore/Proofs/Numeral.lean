import CanonStore.Numeral
import Mathlib.Tactic.Ring

/-!
# Decimal numerals, written and read

`toNat_ofNat` reads a written numeral back, and `toNat_append` splits a run of digits anywhere. The
number of digits is pinned down by `length_le_iff`; a number moved up by a power of ten gets as many
digits more (`length_mul_pow`). A numeral that has enough digits is not filled up (`padded_one_eq_iff`).
-/

namespace CanonStore

/-- A number of the code space is the number of its code point. -/
theorem CodePoint.val_ofNat {n : Nat} (h : n < 0x110000) : (CodePoint.ofNat n).val = n :=
  Nat.mod_eq_of_lt h

namespace Numeral

/-! ## Digits -/

theorem digits_ne_nil (n : Nat) : digits n ≠ [] := by
  rw [digits]
  split <;> simp

theorem digits_lt (n : Nat) : ∀ d ∈ digits n, d < 10 := by
  rw [digits]
  split
  · next h => simpa using h
  · intro d hd
    rcases List.mem_append.mp hd with hd | hd
    · exact digits_lt (n / 10) d hd
    · rw [List.mem_singleton.mp hd]
      exact Nat.mod_lt _ (by decide)

/-- The first digit of a number is zero only if the number is. -/
theorem head?_digits {n : Nat} (hn : n ≠ 0) : (digits n).head? ≠ some 0 := by
  rw [digits]
  split
  · simpa using hn
  · next h =>
    rw [List.head?_append, List.head?_eq_some_head (digits_ne_nil _), Option.some_or,
      ← List.head?_eq_some_head]
    exact head?_digits (by omega)

/-! ## Reading what was written -/

theorem ofNat_ne_nil (n : Nat) : ofNat n ≠ [] := by
  simpa [ofNat] using digits_ne_nil n

theorem ofNat_zero : ofNat 0 = [0x30] := by
  rw [ofNat, digits, if_pos (by decide)]
  rfl

/-- A numeral has as many characters as there are digits. -/
theorem length_ofNat (n : Nat) : (ofNat n).length = length n := List.length_map _

/-- The value of a written digit. -/
theorem val_digit {d : Nat} (hd : d < 10) : (CodePoint.ofNat (0x30 + d)).val = 0x30 + d :=
  CodePoint.val_ofNat (by omega)

/-- A numeral is made of digits. -/
theorem isDigit_of_mem_ofNat {n : Nat} : ∀ c ∈ ofNat n, c.isDigit := by
  intro c hc
  obtain ⟨d, hd, rfl⟩ := List.mem_map.mp hc
  have h := digits_lt n d hd
  simp only [CodePoint.isDigit, val_digit h]
  simp
  omega

/-- A numeral starts with a zero only if it is that of zero. -/
theorem head?_ofNat {n : Nat} (hn : n ≠ 0) : (ofNat n).head? ≠ some 0x30 := by
  intro h
  obtain ⟨d, hd, hz⟩ := Option.map_eq_some_iff.mp (List.head?_map ▸ h)
  have hlt := digits_lt n d (List.mem_of_mem_head? hd)
  have hval := congrArg Fin.val hz
  have hd0 : d = 0 := Nat.add_left_cancel ((val_digit hlt).symm.trans hval)
  exact head?_digits hn (hd0 ▸ hd)

/-- Reading on from a number moves it up by the digits that are read. -/
theorem foldl_toNat (t : Text) (n : Nat) :
    t.foldl (fun n c => 10 * n + (c.val - 0x30)) n = n * 10 ^ t.length + toNat t := by
  induction t generalizing n with
  | nil => simp [toNat]
  | cons c t ih =>
    rw [toNat, List.foldl_cons, List.foldl_cons, ih, ih (10 * 0 + _), List.length_cons]
    ring

/-- Digits that are followed by others count more. -/
theorem toNat_append (s t : Text) : toNat (s ++ t) = toNat s * 10 ^ t.length + toNat t := by
  rw [toNat, List.foldl_append, foldl_toNat]
  rfl

theorem toNat_cons (c : CodePoint) (t : Text) :
    toNat (c :: t) = (c.val - 0x30) * 10 ^ t.length + toNat t := by
  have h := toNat_append [c] t
  simpa [toNat] using h

/-- A numeral tells its number. -/
theorem toNat_ofNat (n : Nat) : toNat (ofNat n) = n := by
  rw [ofNat, digits]
  split
  · next h =>
    simp only [List.map_cons, List.map_nil, toNat, List.foldl_cons, List.foldl_nil, val_digit h]
    omega
  · -- The last digit is read after the numeral of all others.
    have ih : toNat ((digits (n / 10)).map _) = n / 10 := toNat_ofNat (n / 10)
    have hlt : n % 10 < 10 := Nat.mod_lt _ (by decide)
    rw [List.map_append, toNat_append, ih]
    simp only [List.map_cons, List.map_nil, toNat, List.foldl_cons, List.foldl_nil, val_digit hlt,
      List.length_singleton]
    omega

/-- So many digits denote no more than that power of ten. -/
theorem toNat_lt {t : Text} (h : ∀ c ∈ t, c.isDigit) : toNat t < 10 ^ t.length := by
  induction t with
  | nil => exact Nat.one_pos
  | cons c t ih =>
    obtain ⟨hc, ht⟩ := List.forall_mem_cons.mp h
    rw [CodePoint.isDigit, Bool.and_eq_true, decide_eq_true_eq, decide_eq_true_eq] at hc
    have hfirst : (c.val - 0x30) * 10 ^ t.length ≤ 9 * 10 ^ t.length :=
      Nat.mul_le_mul_right _ (by omega)
    have hrest := ih ht
    rw [toNat_cons, List.length_cons, pow_succ]
    omega

/-- Zeros in front change nothing. -/
theorem toNat_zeros_append (k : Nat) (t : Text) : toNat (List.replicate k 0x30 ++ t) = toNat t := by
  induction k with
  | zero => simp
  | succ k ih =>
    rw [List.replicate_succ, List.cons_append, toNat_cons, ih]
    exact (congrArg (· + toNat t) (Nat.zero_mul _)).trans (Nat.zero_add _)

/-- Zeros at the end multiply by a power of ten. -/
theorem toNat_append_zeros (t : Text) (k : Nat) :
    toNat (t ++ List.replicate k 0x30) = toNat t * 10 ^ k := by
  have h := toNat_zeros_append k []
  rw [List.append_nil] at h
  rw [toNat_append, h, List.length_replicate]
  rfl

/-- Leading zeros change nothing about the number. -/
theorem toNat_padded (width n : Nat) : toNat (padded width n) = n := by
  rw [padded, toNat_zeros_append, toNat_ofNat]

/-- A padded numeral is made of digits. -/
theorem isDigit_of_mem_padded {width n : Nat} : ∀ c ∈ padded width n, c.isDigit := by
  intro c hc
  rcases List.mem_append.mp hc with hc | hc
  · rw [List.eq_of_mem_replicate hc]
    rfl
  · exact isDigit_of_mem_ofNat c hc

theorem padded_ne_nil (width n : Nat) : padded width n ≠ [] := by
  simp [padded, ofNat_ne_nil]

/-! ## The number of digits -/

theorem length_pos (n : Nat) : 0 < length n := List.length_pos_iff.mpr (digits_ne_nil n)

theorem length_lt_ten {n : Nat} (h : n < 10) : length n = 1 := by
  rw [length, digits, if_pos h]
  rfl

/-- A number of two digits or more has one digit more than its tenth. -/
theorem length_ten_le {n : Nat} (h : 10 ≤ n) : length n = length (n / 10) + 1 := by
  rw [length, digits, if_neg (by omega), List.length_append]
  rfl

/-- A number has at most `k` digits if it is less than `10 ^ k`. -/
theorem length_le_iff {n k : Nat} (hk : 0 < k) : length n ≤ k ↔ n < 10 ^ k := by
  induction k, hk using Nat.le_induction generalizing n with
  | base =>
    by_cases h : n < 10
    · simp [length_lt_ten h, h]
    · -- Ten and more take a digit for what is left of the last one.
      have := length_pos (n / 10)
      rw [length_ten_le (by omega)]
      omega
  | succ k hk ih =>
    by_cases h : n < 10
    · have hpow : 10 ^ 1 ≤ 10 ^ (k + 1) := Nat.pow_le_pow_right (by decide) (by omega)
      rw [length_lt_ten h]
      omega
    · rw [length_ten_le (by omega), Nat.add_le_add_iff_right, ih, pow_succ,
        Nat.div_lt_iff_lt_mul (by decide)]

/-- A number that is not zero gets `k` digits more when it is multiplied by `10 ^ k`. -/
theorem length_mul_pow {n : Nat} (hn : n ≠ 0) (k : Nat) : length (n * 10 ^ k) = length n + k := by
  induction k with
  | zero => simp
  | succ k ih =>
    have hpos : 0 < n * 10 ^ k := Nat.mul_pos (Nat.pos_of_ne_zero hn) (Nat.pow_pos (by decide))
    have hmul : n * 10 ^ (k + 1) = n * 10 ^ k * 10 := by rw [pow_succ, Nat.mul_assoc]
    rw [hmul, length_ten_le (by omega), Nat.mul_div_cancel _ (by decide), ih, Nat.add_assoc]

/-! ## Numerals filled up with zeros -/

/-- Padding reaches the width, unless the number is longer. -/
theorem length_padded (width n : Nat) : (padded width n).length = max width (length n) := by
  rw [padded, List.length_append, List.length_replicate, length_ofNat]
  omega

/-- A number with few digits is padded to exactly the width. -/
theorem length_padded_of_lt {width n : Nat} (hwidth : 0 < width) (h : n < 10 ^ width) :
    (padded width n).length = width := by
  rw [length_padded]
  exact Nat.max_eq_left ((length_le_iff hwidth).mpr h)

/-- A number that is long enough is not padded. -/
theorem padded_of_le {width n : Nat} (h : width ≤ length n) : padded width n = ofNat n := by
  rw [padded, Nat.sub_eq_zero_of_le h]
  rfl

/-- Filling up does nothing exactly if the number has as many digits by itself. -/
theorem padded_one_eq_iff {width n : Nat} : padded 1 n = padded width n ↔ width ≤ length n := by
  have hpos := length_pos n
  constructor
  · intro h
    have hlength := congrArg List.length h
    rw [length_padded, length_padded] at hlength
    omega
  · intro h
    rw [padded_of_le hpos, padded_of_le h]

end Numeral

end CanonStore
