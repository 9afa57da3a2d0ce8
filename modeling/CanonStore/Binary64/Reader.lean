import CanonStore.Binary64

/-!
# Reading floating-point numbers

A decimal numeral is a run of digits, perhaps a point with more digits, perhaps an exponent.
`decimal?` reads one that is the whole text; `ofText?` reads also the words for the numbers that are
not finite.
-/

namespace CanonStore.Binary64

/-- A sign, if there is one, and what follows; `true` is a minus sign. -/
def takeSign : Text → Bool × Text
  | c :: rest => if c = '-' then (true, rest) else if c = '+' then (false, rest) else (false, c :: rest)
  | [] => (false, [])

/-- The leading run of digits and what follows. -/
def takeDigits (t : Text) : Text × Text := (t.takeWhile CodePoint.isDigit, t.dropWhile CodePoint.isDigit)

/-- The value of an exponent part `e`, sign, digits. -/
def exponent? : Text → Option Int
  | [] => some 0
  | c :: rest =>
    if c = 'e' || c = 'E' then
      let (negative, t) := takeSign rest
      let (ds, after) := takeDigits t
      if ds.isEmpty || !after.isEmpty then none
      else some (if negative then -(Numeral.toNat ds : Int) else Numeral.toNat ds)
    else none

/-- The number that an unsigned decimal numeral denotes. At least one digit has to stand before the
exponent. -/
def decimal? (negative : Bool) (t : Text) : Option Binary64 :=
  let (whole, rest) := takeDigits t
  -- A point without digits after it is a fraction of no digits, and may stand behind digits.
  let (fraction, rest) :=
    match rest with
    | c :: r => if c = '.' then takeDigits r else ([], rest)
    | [] => ([], [])
  if whole.isEmpty && fraction.isEmpty then none
  else (exponent? rest).map fun e =>
    ofDecimal negative (Numeral.toNat (whole ++ fraction)) (e - fraction.length)

/-- The number that a text denotes: a decimal numeral or one of the words `nan`, `inf`, `infinity` in
letters of either case, with or without a sign. -/
def ofText? (t : Text) : Option Binary64 :=
  let (negative, rest) := takeSign t
  let word := rest.map CodePoint.toLowerAscii
  -- A word is looked for first: no numeral starts with a letter, so neither hides the other.
  if word = Text.ofString "nan" then some .nan
  else if word = Text.ofString "inf" || word = Text.ofString "infinity" then some (.infinite negative)
  else decimal? negative rest

end CanonStore.Binary64
