/-!
# Text

A text is a list of code points. Unlike a list of characters it can hold a lone surrogate: documents
may spell one with an escape, and the library has to say exactly what then happens to it.

String literals are read as texts where a text is expected, so messages are written as literals
joined with `++`.
-/

namespace CanonStore

/-- A number of the code space, surrogates included. -/
abbrev CodePoint := Fin 0x110000

/-- There are code points, so a numeral denotes one. -/
instance CodePoint.count_neZero : @NeZero Nat Zero.ofOfNat0 0x110000 := ⟨Nat.succ_ne_zero 0x10FFFF⟩

/-- A sequence of code points. -/
abbrev Text := List CodePoint

/-- Texts are ordered code point by code point, an initial part first. -/
instance Text.instLE : LE Text := List.instLE

/-- The strict order of texts. -/
instance Text.instLT : LT Text := List.instLT

/-- A sequence of octets. -/
abbrev Bytes := List UInt8

namespace CodePoint

def ofChar (c : Char) : CodePoint := Fin.ofNat _ c.toNat

instance : Coe Char CodePoint := ⟨ofChar⟩

/-- The code point with a number, reduced into the code space. -/
def ofNat (n : Nat) : CodePoint := Fin.ofNat _ n

def ofByte (b : UInt8) : CodePoint := ofNat b.toNat

def isHighSurrogate (c : CodePoint) : Bool := 0xD800 ≤ c.val && c.val ≤ 0xDBFF

def isLowSurrogate (c : CodePoint) : Bool := 0xDC00 ≤ c.val && c.val ≤ 0xDFFF

def isSurrogate (c : CodePoint) : Bool := 0xD800 ≤ c.val && c.val ≤ 0xDFFF

/-- The code point that a surrogate pair stands for. -/
def ofSurrogates (high low : CodePoint) : CodePoint :=
  ofNat (0x10000 + (high.val - 0xD800) * 0x400 + (low.val - 0xDC00))

def isDigit (c : CodePoint) : Bool := 0x30 ≤ c.val && c.val ≤ 0x39

def isLower (c : CodePoint) : Bool := 0x61 ≤ c.val && c.val ≤ 0x7A

def isUpper (c : CodePoint) : Bool := 0x41 ≤ c.val && c.val ≤ 0x5A

def isLetter (c : CodePoint) : Bool := c.isLower || c.isUpper

def isAscii (c : CodePoint) : Bool := c.val < 0x80

/-- The value of a hexadecimal digit of either case. -/
def hexValue? (c : CodePoint) : Option Nat :=
  if c.isDigit then some (c.val - 0x30)
  else if 0x61 ≤ c.val && c.val ≤ 0x66 then some (c.val - 0x57)
  else if 0x41 ≤ c.val && c.val ≤ 0x46 then some (c.val - 0x37)
  else none

/-- A decimal digit or one of `a` to `f`, `A` to `F`. -/
def isHexDigit (c : CodePoint) : Bool := c.hexValue?.isSome

/-- The lower-case hexadecimal digit of a value below sixteen. -/
def ofHexValue (n : Nat) : CodePoint := if n < 10 then ofNat (0x30 + n) else ofNat (0x57 + n)

/-- The lower-case letter of a letter `A` to `Z`; every other code point is itself. -/
def toLowerAscii (c : CodePoint) : CodePoint := if c.isUpper then ofNat (c.val + 32) else c

/-- The capital letter of a letter `a` to `z`; every other code point is itself. -/
def toUpperAscii (c : CodePoint) : CodePoint := if c.isLower then ofNat (c.val - 32) else c

end CodePoint

namespace Text

def ofString (s : String) : Text := s.toList.map CodePoint.ofChar

instance : Coe String Text := ⟨ofString⟩

/-- The string of a text. A lone surrogate, which no string can hold, becomes U+FFFD. -/
def toString (t : Text) : String :=
  String.ofList (t.map fun c => if c.isSurrogate then '\uFFFD' else Char.ofNat c.val)

/-- The texts of a list with a separator between neighbours. -/
def joinWith (separator : Text) : List Text → Text
  | [] => []
  | [t] => t
  | t :: u :: rest => t ++ separator ++ joinWith separator (u :: rest)

/-- The first text is an initial part of the second. -/
def isPrefix (p t : Text) : Bool := p.isPrefixOf t

/-- What follows an initial part, or nothing if it is none. -/
def dropPrefix? : Text → Text → Option Text
  | [], t => some t
  | _ :: _, [] => none
  | p :: ps, c :: cs => if p = c then dropPrefix? ps cs else none

/-- The text as octets, each code point reduced to eight bits. Meant for texts below U+0100. -/
def toBytes (t : Text) : Bytes := t.map fun c => UInt8.ofNat c.val

/-- The pieces of a text between the occurrences of a separating code point. -/
def splitOn (separator : CodePoint) : Text → List Text
  | [] => [[]]
  | c :: rest =>
    match splitOn separator rest with
    | [] => [[]]
    | piece :: pieces =>
      if c = separator then [] :: piece :: pieces else (c :: piece) :: pieces

end Text

end CanonStore
