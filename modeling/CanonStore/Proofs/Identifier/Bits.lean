import CanonStore.Identifier
import Mathlib.Data.Fintype.Prod
import Mathlib.Data.Nat.Bitwise

/-!
# The bits of identifiers

Marking octets sets six of their bits, the same in every identifier (`fixedBit?`), and keeps the other 122
(`bit_mark`). So two rows of octets are marked alike exactly if they agree on these (`mark_eq_mark_iff`).
-/

namespace CanonStore.Identifier

/-- A place of a bit: the octet that holds it, and the exponent of its weight there. -/
abbrev Place := Fin 16 × Fin 8

/-- The bit of octets at a place. -/
def bit (octets : Bytes) (p : Place) : Bool := (octets.getD p.1 0).toNat.testBit p.2

/-- The bits that all identifiers have in common: `0100` on top of octet 6 for the version, `10` on top of
octet 8 for the variant. -/
def fixedBit? : Place → Option Bool
  | (6, 7) => some false
  | (6, 6) => some true
  | (6, 5) => some false
  | (6, 4) => some false
  | (8, 7) => some true
  | (8, 6) => some false
  | _ => none

/-- Six bits are fixed, and 122 are free. -/
theorem card_free : (Finset.univ.filter fun p => fixedBit? p = none).card = 122 := by rfl

variable {r s m : Bytes}

/-! ## Marked octets -/

/-- An octet with its upper bits overwritten by those of `top`. -/
theorem or_and_eq_add (n k top : Nat) : (n &&& (2 ^ k - 1)) ||| 2 ^ k * top = 2 ^ k * top + n % 2 ^ k := by
  have hlow : n % 2 ^ k < 2 ^ k := Nat.mod_lt n (Nat.two_pow_pos k)
  rw [Nat.and_two_pow_sub_one_eq_mod, Nat.or_comm, Nat.two_pow_add_eq_or_of_lt hlow]

/-- The upper four bits are those of the version. -/
theorem toNat_markVersion (b : UInt8) : (markVersion b).toNat = 2 ^ 4 * 0b0100 + b.toNat % 2 ^ 4 := by
  rw [markVersion, UInt8.toNat_or, UInt8.toNat_and]
  exact or_and_eq_add b.toNat 4 0b0100

/-- The upper two bits are those of the variant. -/
theorem toNat_markVariant (b : UInt8) : (markVariant b).toNat = 2 ^ 6 * 0b10 + b.toNat % 2 ^ 6 := by
  rw [markVariant, UInt8.toNat_or, UInt8.toNat_and]
  exact or_and_eq_add b.toNat 6 0b10

/-- The lower bits of a number with others on top of them. -/
theorem testBit_add_mod (n k top j : Nat) :
    (2 ^ k * top + n % 2 ^ k).testBit j = if j < k then n.testBit j else top.testBit (j - k) := by
  have hlow : n % 2 ^ k < 2 ^ k := Nat.mod_lt n (Nat.two_pow_pos k)
  rw [Nat.testBit_two_pow_mul_add top hlow, Nat.testBit_mod_two_pow]
  split
  · next hj => simp [hj]
  · rfl

/-- The version takes the place of fixed bits and leaves the free ones. -/
theorem testBit_markVersion (b : UInt8) (j : Fin 8) :
    (markVersion b).toNat.testBit j = (fixedBit? (6, j)).getD (b.toNat.testBit j) := by
  rw [toNat_markVersion, testBit_add_mod]
  generalize b.toNat.testBit j = x
  revert x j
  decide

/-- The variant takes the place of fixed bits and leaves the free ones. -/
theorem testBit_markVariant (b : UInt8) (j : Fin 8) :
    (markVariant b).toNat.testBit j = (fixedBit? (8, j)).getD (b.toNat.testBit j) := by
  rw [toNat_markVariant, testBit_add_mod]
  generalize b.toNat.testBit j = x
  revert x j
  decide

@[simp]
theorem length_mark (r : Bytes) : (mark r).length = r.length := by simp [mark]

theorem getElem_mark {i : Nat} (h : i < r.length) (h' : i < (mark r).length) :
    (mark r)[i] = if i = 6 then markVersion r[i] else if i = 8 then markVariant r[i] else r[i] := by
  simp only [mark, List.getElem_modify]
  grind

/-! ## The bits of marked octets -/

theorem bit_of_lt {i : Fin 16} (h : i < r.length) (j : Fin 8) : bit r (i, j) = r[i.val].toNat.testBit j := by
  rw [bit, List.getD_eq_getElem r 0 h]

/-- Only the octets of the version and the variant have fixed bits. -/
theorem fixedBit?_of_ne : ∀ i : Fin 16, i ≠ 6 → i ≠ 8 → ∀ j, fixedBit? (i, j) = none := by decide

/-- Marking sets the fixed bits and keeps the others. -/
theorem bit_mark (hr : r.length = size) (p : Place) : bit (mark r) p = (fixedBit? p).getD (bit r p) := by
  obtain ⟨i, j⟩ := p
  have hi : i < r.length := hr ▸ i.isLt
  have hi' : i < (mark r).length := (length_mark r).symm ▸ hi
  rw [bit_of_lt hi, bit_of_lt hi', getElem_mark hi hi']
  by_cases h6 : i = 6
  · subst h6
    exact testBit_markVersion _ j
  · by_cases h8 : i = 8
    · subst h8
      exact testBit_markVariant _ j
    · have h6' : i.val ≠ 6 := Fin.val_ne_of_ne h6
      have h8' : i.val ≠ 8 := Fin.val_ne_of_ne h8
      rw [if_neg h6', if_neg h8', fixedBit?_of_ne i h6 h8]
      rfl

/-- Octets are known by their bits. -/
theorem eq_of_bit (hr : r.length = size) (hs : s.length = size) (h : ∀ p, bit r p = bit s p) : r = s := by
  apply List.ext_getElem (hr.trans hs.symm)
  intro i hi hi'
  apply UInt8.toNat_inj.mp
  apply Nat.eq_of_testBit_eq
  intro j
  by_cases hj : j < 8
  · have hsize : i < 16 := Nat.lt_of_lt_of_eq hi hr
    have hbit := h (⟨i, hsize⟩, ⟨j, hj⟩)
    rwa [bit_of_lt hi, bit_of_lt hi'] at hbit
  · have hhigh : ∀ b : UInt8, b.toNat.testBit j = false := fun b =>
      Nat.testBit_lt_two_pow (Nat.lt_of_lt_of_le b.toNat_lt (Nat.pow_le_pow_right (by decide) (by omega)))
    rw [hhigh, hhigh]

/-- Octets are marked alike exactly if they agree on the bits that are not fixed. -/
theorem mark_eq_mark_iff (hr : r.length = size) (hs : s.length = size) :
    mark r = mark s ↔ ∀ p, fixedBit? p = none → bit r p = bit s p := by
  constructor
  · intro h p hp
    have hbit : bit (mark r) p = bit (mark s) p := by rw [h]
    rwa [bit_mark hr, bit_mark hs, hp] at hbit
  · intro h
    apply eq_of_bit (by simpa using hr) (by simpa using hs)
    intro p
    rw [bit_mark hr, bit_mark hs]
    cases hp : fixedBit? p with
    | none => exact h p hp
    | some b => rfl

/-- Marking once is enough. -/
theorem mark_mark (hr : r.length = size) : mark (mark r) = mark r := by
  apply (mark_eq_mark_iff (by simpa using hr) hr).mpr
  intro p hp
  rw [bit_mark hr, hp]
  rfl

theorem markVersion_eq_self_iff (b : UInt8) : markVersion b = b ↔ b.toNat / 16 = 4 := by
  rw [← UInt8.toNat_inj, toNat_markVersion]
  omega

theorem markVariant_eq_self_iff (b : UInt8) : markVariant b = b ↔ b.toNat / 64 = 2 := by
  rw [← UInt8.toNat_inj, toNat_markVariant]
  omega

/-- Octets that bear the version and the variant are marked already. -/
theorem mark_eq_self_iff (h6 : 6 < m.length) (h8 : 8 < m.length) :
    mark m = m ↔ m[6].toNat / 16 = 4 ∧ m[8].toNat / 64 = 2 := by
  rw [← markVersion_eq_self_iff, ← markVariant_eq_self_iff]
  constructor
  · intro h
    -- The marked octets are the unmarked ones, so they agree place by place.
    have hget {i : Nat} (hi : i < m.length) :
        (if i = 6 then markVersion m[i] else if i = 8 then markVariant m[i] else m[i]) = m[i] := by
      rw [← getElem_mark hi ((length_mark m).symm ▸ hi)]
      simp only [h]
    exact ⟨hget h6, hget h8⟩
  · rintro ⟨hversion, hvariant⟩
    apply List.ext_getElem (length_mark m)
    intro i hi' hi
    rw [getElem_mark hi hi']
    split
    · next h => subst h; exact hversion
    · split
      · next h => subst h; exact hvariant
      · rfl

end CanonStore.Identifier
