import CanonStore.Binary64

/-!
# The shortest decimal of a floating-point number

`shortest` selects, for a finite magnitude, the decimal with the fewest digits that reads back to it,
and of those the nearest one. `text` lays the decimal out: positionally while the exponent of the
leading digit lies from -4 to 15, and otherwise with an exponent of at least two digits.
-/

namespace CanonStore.Binary64

/-- The decimal `digits * 10 ^ exponent`. -/
structure Decimal where
  digits : Nat
  exponent : Int
deriving DecidableEq

/-- Reading the decimal gives the magnitude at this place. -/
def readsBack (place : Nat) (d : Decimal) : Bool :=
  match ofDecimal false d.digits d.exponent with
  | .finite _ p => p.val = place
  | _ => false

/-- The magnitude at a place, in units of `10 ^ -400` and rounded down. -/
def decimalScaled (place : Nat) : Nat := scaled place * Nat.pow 10 400 / scaledOne

/-- The nearer of two neighbours on the decimal grid with `count` digits, if a neighbour reads back.
A tie goes to the even one. `s` is the magnitude in units of `10 ^ -400`, a number of `length`
digits. -/
def candidate? (place s length count : Nat) : Option Decimal :=
  let low := s / Nat.pow 10 (length - count)
  let exponent : Int := (length - count : Nat) - 400
  let below : Decimal := ⟨low, exponent⟩
  let above : Decimal := ⟨low + 1, exponent⟩
  match readsBack place below, readsBack place above with
  | true, false => some below
  | false, true => some above
  | true, true =>
    -- Both neighbours read back. They are compared with the magnitude itself, as whole numbers: `s` has
    -- lost what lies below its last digit.
    let twice := 2 * scaled place * Nat.pow 10 400
    let middle := (2 * low + 1) * Nat.pow 10 (length - count) * scaledOne
    if twice < middle then some below
    else if middle < twice then some above
    else if low % 2 = 0 then some below else some above
  | false, false => none

/-- The magnitude at a place as a decimal, exactly. -/
def exactDecimal (place : Nat) : Decimal := ⟨scaled place * Nat.pow 5 1074, -1074⟩

/-- The decimal with the fewest digits that reads back to the magnitude at a place. -/
def shortest (place : Nat) : Decimal :=
  if place = 0 then ⟨0, 0⟩
  else
    let s := decimalScaled place
    let length := Numeral.length s
    -- Seventeen digits always suffice, so the exact decimal is never reached.
    ((List.range 17).findSome? fun i => candidate? place s length (i + 1)).getD (exactDecimal place)

def dropTrailingZeros (t : Text) : Text :=
  (t.reverse.dropWhile fun c : CodePoint => c = '0').reverse

/-- The exponent part: a sign and at least two digits. -/
def exponentText (e : Int) : Text :=
  (if e < 0 then "e-" else "e+" : Text) ++ Numeral.padded 2 e.natAbs

/-- Lays out the significant digits of a decimal whose leading digit has exponent `e`. -/
def layout (ds : Text) (e : Int) : Text :=
  if e < -4 || 16 ≤ e then
    match ds with
    | [] => []
    | [d] => d :: exponentText e
    | d :: rest => d :: '.' :: rest ++ exponentText e
  else if e < 0 then "0." ++ List.replicate (-e - 1).toNat (0x30 : CodePoint) ++ ds
  else
    -- Zeros fill up to the point; then the digits are cut there, and a point is written even if nothing
    -- follows.
    let whole := e.toNat + 1
    let ds := ds ++ List.replicate (whole - ds.length) 0x30
    ds.take whole ++ (if ds.length ≤ whole then ".0" else '.' :: ds.drop whole : Text)

def magnitudeText (place : Nat) : Text :=
  if place = 0 then "0.0"
  else
    let d := shortest place
    let ds := Numeral.ofNat d.digits
    layout (dropTrailingZeros ds) (d.exponent + ds.length - 1)

/-- How the numbers that are not finite are spelled. -/
structure Special where
  nan : Text
  infinity : Text

def textWith (special : Special) : Binary64 → Text
  | .finite negative place => (if negative then "-" else "" : Text) ++ magnitudeText place
  | .infinite negative => (if negative then "-" else "" : Text) ++ special.infinity
  | .nan => special.nan

def text : Binary64 → Text := textWith ⟨"nan", "inf"⟩

def jsonText : Binary64 → Text := textWith ⟨"NaN", "Infinity"⟩

end CanonStore.Binary64
