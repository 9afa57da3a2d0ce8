import CanonStore.Numeral

/-!
# Binary64

Floating-point numbers of 64 bits, without their bits: the non-negative finite ones are counted from
zero upwards, so number `n` is the `n`-th of them, and the infinities and a single NaN come besides.

Every finite magnitude is a whole multiple of `2 ^ -1074`; `scaled` gives that multiple. Rounding a
quotient to the nearest magnitude, ties to the even one, is `nearest`, and all conversions from
decimals and integers go through it.
-/

namespace CanonStore

/-- How many magnitudes a binade holds, `2 ^ 52`. -/
abbrev binadeSize : Nat := 0x10000000000000

/-- How many finite magnitudes there are. -/
abbrev magnitudeCount : Nat := 0x7FF * binadeSize

/-- A floating-point number of 64 bits. -/
inductive Binary64 where
  /-- A finite number with a sign; its magnitude is given by its place among all of them. -/
  | finite (negative : Bool) (place : Fin magnitudeCount)
  | infinite (negative : Bool)
  | nan
deriving DecidableEq

namespace Binary64

instance : Inhabited Binary64 := ⟨.nan⟩

/-! ## Magnitudes -/

/-- The binade of a place: from one binade to the next the spacing doubles. -/
def binade (place : Nat) : Nat := place / binadeSize - 1

/-- The significand of a place, below `2 ^ 53`. -/
def significand (place : Nat) : Nat := place - binade place * binadeSize

/-- The magnitude at a place, in multiples of `2 ^ -1074`. -/
def scaled (place : Nat) : Nat := significand place * Nat.pow 2 (binade place)

def scaledOne : Nat := Nat.pow 2 1074

/-- A quotient rounded to a whole number, ties to even. -/
def roundQuotient (num den : Nat) : Nat :=
  let q := num / den
  let r := num % den
  if 2 * r < den then q else if den < 2 * r then q + 1 else if q % 2 = 0 then q else q + 1

/-- The place of the magnitude nearest to a quotient, ties to even, as if places went on for ever. -/
def nearest (num den : Nat) : Nat :=
  let scaledNum := num * scaledOne
  let b := (scaledNum / den).log2 - 52
  b * binadeSize + roundQuotient scaledNum (den * Nat.pow 2 b)

/-- The number at a place, infinite from the first place beyond the finite ones. -/
def atPlace (negative : Bool) (place : Nat) : Binary64 :=
  if h : place < magnitudeCount then .finite negative ⟨place, h⟩ else .infinite negative

/-- The number nearest to a quotient with a sign. -/
def ofQuotient (negative : Bool) (num den : Nat) : Binary64 := atPlace negative (nearest num den)

/-- The number nearest to `digits * 10 ^ exponent`. Exponents far outside the finite range are
settled by the number of digits. -/
def ofDecimal (negative : Bool) (digits : Nat) (exponent : Int) : Binary64 :=
  if digits = 0 then .finite negative 0
  else
    let leading := exponent + Numeral.length digits
    if 400 < leading then .infinite negative
    else if leading < -400 then .finite negative 0
    else if 0 ≤ exponent then ofQuotient negative (digits * Nat.pow 10 exponent.toNat) 1
    else ofQuotient negative digits (Nat.pow 10 (-exponent).toNat)

def ofInt (n : Int) : Binary64 := ofQuotient (decide (n < 0)) n.natAbs 1

def zero : Binary64 := .finite false 0

/-! ## Tests and conversions -/

def isFinite : Binary64 → Bool
  | .finite _ _ => true
  | _ => false

def isZero : Binary64 → Bool
  | .finite _ place => place = 0
  | _ => false

/-- The integer that a finite number equals, if it is one. -/
def toInt? : Binary64 → Option Int
  | .finite negative place =>
    let n := scaled place
    if n % scaledOne = 0 then
      some (if negative then -((n / scaledOne : Nat) : Int) else ((n / scaledOne : Nat) : Int))
    else none
  | _ => none

/-- A finite number as a signed multiple of `2 ^ -1074`. -/
def toScaled? : Binary64 → Option Int
  | .finite negative place => some (if negative then -(scaled place : Int) else (scaled place : Int))
  | _ => none

/-- Equality of the numbers that are meant: zeros of both signs are equal, NaN equals nothing. -/
def numEq : Binary64 → Binary64 → Bool
  | .finite s m, .finite t n => (s = t && m = n) || (m = 0 && n = 0)
  | .infinite s, .infinite t => s = t
  | _, _ => false

end Binary64

end CanonStore
