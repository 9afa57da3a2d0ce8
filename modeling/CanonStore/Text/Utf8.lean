import CanonStore.Numeral

/-!
# UTF-8

`encode` writes each code point as one to four octets and refuses surrogates. `decode` reads them
back; whether the three octets of a surrogate pass is a choice of the caller. A fault names the octets
that do not fit and says why.
-/

namespace CanonStore

/-- Why octets are no text in some encoding. -/
inductive DecodingReason where
  | invalidStart
  | invalidContinuation
  | unexpectedEnd
  | truncated
  | outOfRange
deriving DecidableEq

def DecodingReason.text : DecodingReason → Text
  | .invalidStart => "invalid start byte"
  | .invalidContinuation => "invalid continuation byte"
  | .unexpectedEnd => "unexpected end of data"
  | .truncated => "truncated data"
  | .outOfRange => "code point not in range(0x110000)"

/-- Octets that are no text in the encoding `codec`: those from `start` on, `octets` themselves. -/
structure DecodingFault where
  codec : Text
  start : Nat
  octets : Bytes
  reason : DecodingReason
deriving DecidableEq

/-- The wording of a fault: a single octet is shown, several are given by their positions. -/
def DecodingFault.message (f : DecodingFault) : Text :=
  "'" ++ f.codec ++ "' codec can't decode " ++
    (match f.octets with
     | [b] => "byte 0x" ++ Numeral.hexPadded 2 b.toNat ++ " in position " ++ Numeral.ofNat f.start
     | octets =>
       "bytes in position " ++ Numeral.ofNat f.start ++ "-" ++
         Numeral.ofNat (f.start + octets.length - 1)) ++
    ": " ++ f.reason.text

/-- A run of surrogates that UTF-8 cannot hold: the first of them, its position and their number. -/
structure EncodingFault where
  first : CodePoint
  start : Nat
  count : Nat
deriving DecidableEq

def EncodingFault.message (f : EncodingFault) : Text :=
  "'utf-8' codec can't encode " ++
    (if f.count = 1 then
      "character '\\u" ++ Numeral.hexPadded 4 f.first.val ++ "' in position " ++ Numeral.ofNat f.start
     else
      "characters in position " ++ Numeral.ofNat f.start ++ "-" ++
        Numeral.ofNat (f.start + f.count - 1)) ++
    ": surrogates not allowed"

namespace Utf8

def encodeOne (c : CodePoint) : Bytes :=
  let n := c.val
  if n < 0x80 then [UInt8.ofNat n]
  else if n < 0x800 then [UInt8.ofNat (0xC0 + n / 0x40), UInt8.ofNat (0x80 + n % 0x40)]
  else if n < 0x10000 then
    [UInt8.ofNat (0xE0 + n / 0x1000), UInt8.ofNat (0x80 + n / 0x40 % 0x40), UInt8.ofNat (0x80 + n % 0x40)]
  else
    [UInt8.ofNat (0xF0 + n / 0x40000), UInt8.ofNat (0x80 + n / 0x1000 % 0x40),
     UInt8.ofNat (0x80 + n / 0x40 % 0x40), UInt8.ofNat (0x80 + n % 0x40)]

def encodeAny (t : Text) : Bytes := t.flatMap encodeOne

def surrogateRun? (t : Text) : Option EncodingFault :=
  match t.dropWhile fun c => !c.isSurrogate with
  | [] => none
  | c :: rest =>
    -- The run ends at the first code point that is no surrogate, even if more follow behind it.
    some ⟨c, t.length - (rest.length + 1), 1 + (rest.takeWhile CodePoint.isSurrogate).length⟩

def encode (t : Text) : Except EncodingFault Bytes :=
  match surrogateRun? t with
  | some fault => .error fault
  | none => .ok (encodeAny t)

def isContinuation (b : UInt8) : Bool := 0x80 ≤ b.toNat && b.toNat ≤ 0xBF

/-- The six bits that a continuation octet holds. -/
def bits (b : UInt8) : Nat := b.toNat % 0x40

/-- The second octet may follow the first of a sequence of three: no overlong form, and surrogates
only where they pass. -/
def isSecondOfThree (surrogates : Bool) (first second : UInt8) : Bool :=
  isContinuation second && !(first = 0xE0 && second.toNat < 0xA0) &&
    !(first = 0xED && 0xA0 ≤ second.toNat && !surrogates)

/-- The second octet may follow the first of a sequence of four: no overlong form, and nothing beyond
the code space. -/
def isSecondOfFour (first second : UInt8) : Bool :=
  isContinuation second && !(first = 0xF0 && second.toNat < 0x90) &&
    !(first = 0xF4 && 0x90 ≤ second.toNat)

def isSurrogateForm : Bytes → Bool
  | a :: b :: c :: _ => a = 0xED && 0xA0 ≤ b.toNat && b.toNat ≤ 0xBF && isContinuation c
  | _ => false

/-- Reads octets, the first of which has the given position. -/
def decodeFrom (surrogates : Bool) (position : Nat) : Bytes → Except DecodingFault Text
  | [] => .ok []
  | a :: r1 =>
    let fail (octets : Bytes) (reason : DecodingReason) : Except DecodingFault Text :=
      .error ⟨"utf-8", position, octets, reason⟩
    if a.toNat < 0x80 then
      (decodeFrom surrogates (position + 1) r1).map (CodePoint.ofByte a :: ·)
    -- Continuation octets, the starts of overlong forms of two octets, and starts beyond the code space.
    else if a.toNat < 0xC2 || 0xF4 < a.toNat then fail [a] .invalidStart
    else if a.toNat < 0xE0 then
      match r1 with
      | [] => fail [a] .unexpectedEnd
      | b :: r2 =>
        if isContinuation b then
          (decodeFrom surrogates (position + 2) r2).map
            (CodePoint.ofNat ((a.toNat - 0xC0) * 0x40 + bits b) :: ·)
        else fail [a] .invalidContinuation
    else if a.toNat < 0xF0 then
      match r1 with
      | [] => fail [a] .unexpectedEnd
      | b :: r2 =>
        -- A surrogate passes only if its third octet is there: otherwise the second one is at fault.
        if !isSecondOfThree (surrogates && isSurrogateForm (a :: b :: r2)) a b then
          fail [a] .invalidContinuation
        else match r2 with
          | [] => fail [a, b] .unexpectedEnd
          | c :: r3 =>
            if isContinuation c then
              (decodeFrom surrogates (position + 3) r3).map
                (CodePoint.ofNat ((a.toNat - 0xE0) * 0x1000 + bits b * 0x40 + bits c) :: ·)
            -- The octets that did fit belong to the fault; reading stops at the first that does not.
            else fail [a, b] .invalidContinuation
    else
      match r1 with
      | [] => fail [a] .unexpectedEnd
      | b :: r2 =>
        if !isSecondOfFour a b then fail [a] .invalidContinuation
        else match r2 with
          | [] => fail [a, b] .unexpectedEnd
          | c :: r3 =>
            if !isContinuation c then fail [a, b] .invalidContinuation
            else match r3 with
              | [] => fail [a, b, c] .unexpectedEnd
              | d :: r4 =>
                if isContinuation d then
                  (decodeFrom surrogates (position + 4) r4).map
                    (CodePoint.ofNat ((a.toNat - 0xF0) * 0x40000 + bits b * 0x1000 + bits c * 0x40 +
                      bits d) :: ·)
                else fail [a, b, c] .invalidContinuation

/-- Reads octets; `surrogates` says whether the octets of a lone surrogate pass. -/
def decode (surrogates : Bool) (bytes : Bytes) : Except DecodingFault Text :=
  decodeFrom surrogates 0 bytes

end Utf8

end CanonStore
