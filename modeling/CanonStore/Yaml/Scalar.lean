import CanonStore.Base64
import CanonStore.Binary64.Reader
import CanonStore.Json.Reader
import CanonStore.Text.Blank
import CanonStore.Value.Display
import CanonStore.Yaml.Tag

/-!
# Values of scalars

What a scalar denotes under a tag. A tag that is written in the document may stand before any text, so
each of these functions says what becomes of a text that is no number, word or moment.
-/

namespace CanonStore.Yaml

/-- A value cannot be made of a node. -/
abbrev badValue : YamlFault := .malformed .value

def tooShort : YamlFault := .scalar .index "string index out of range"

/-- A minus sign stands in front, and what follows a sign. -/
def splitSign (t : Text) : Bool × Text := (t.head? = some 0x2D, dropSign t)

/-! ## Integers -/

/-- The wording for a text that is no integer in a base. -/
def notIntText (base : Nat) (t : Text) : Text :=
  "invalid literal for int() with base " ++ Numeral.ofNat base ++ ": " ++ t.quoted

/-- The digits of a numeral without the mark of its base. -/
def dropBaseMark (base : Nat) (digits : Text) : Text :=
  let mark? : Option CodePoint :=
    if base = 2 then some 'b' else if base = 8 then some 'o' else if base = 16 then some 'x' else none
  match digits with
  -- A mark may be written once more behind the one that chose the base.
  | 0x30 :: m :: rest => if mark? = some m.toLowerAscii then rest else digits
  | _ => digits

/-- The integer that a numeral in a base denotes. Decimal numerals of more than 4300 digits are
refused. -/
def readInt (base : Nat) (t : Text) : Except YamlFault Int :=
  let (negative, unsigned) := splitSign t.trim
  let digits := dropBaseMark base unsigned
  if digits.isEmpty || !(digits.all fun c => c.hexValue?.any (· < base)) then
    .error (.scalar .value (notIntText base t))
  else if base = 10 && 4300 < digits.length then
    .error (.scalar .value (Json.oversizedText digits.length))
  else
    let n : Nat := digits.foldl (fun n c => base * n + c.hexValue?.getD 0) 0
    .ok (if negative then -(n : Int) else n)

def readSexagesimal (places : List Text) : Except YamlFault Int := do
  let ns ← places.mapM (readInt 10)
  pure (ns.foldl (fun n d => 60 * n + d) 0)

/-- The integer that a scalar denotes. Its base shows in its first digits. -/
def toInt (t : Text) : Except YamlFault Int :=
  let filled := t.filter (· ≠ 0x5F)
  if filled.isEmpty then .error tooShort
  else
    let (negative, digits) := splitSign filled
    let magnitude : Except YamlFault Int :=
      match digits with
      | [] => .error tooShort
      | [0x30] => .ok 0
      | 0x30 :: 0x62 :: rest => readInt 2 rest
      | 0x30 :: 0x78 :: rest => readInt 16 rest
      -- Octal by the leading zero alone.
      | 0x30 :: _ => readInt 8 digits
      -- A sexagesimal numeral cannot start with zero: it was taken for octal above.
      | _ => if digits.contains 0x3A then readSexagesimal (Text.splitOn 0x3A digits) else readInt 10 digits
    magnitude.map fun n => if negative then -n else n

/-! ## Floating-point numbers -/

def readFloat (t : Text) : Except YamlFault Binary64 :=
  match Binary64.ofText? t.trim with
  | some x => .ok x
  | none => .error (.scalar .value ("could not convert string to float: " ++ t.quoted))

/-- The number nearest to a multiple of `2 ^ -1074`. -/
def ofScaled (n : Int) : Binary64 := Binary64.ofQuotient (decide (n < 0)) n.natAbs Binary64.scaledOne

/-- The sum of places in base sixty, the last of which counts `weight`. Each product and each sum is
rounded. -/
def sumPlaces (weight : Nat) (sum : Binary64) : List Binary64 → Binary64
  | [] => sum
  | x :: rest =>
    let next :=
      match x.toScaled?, sum.toScaled? with
      | some n, some m => ofScaled (m + ((ofScaled (n * weight)).toScaled?.getD 0))
      | _, _ => .infinite false
    sumPlaces (60 * weight) next rest

/-- The number with a minus sign in front if one is written. -/
def withSign (negative : Bool) (x : Binary64) : Binary64 :=
  if negative then
    match x with
    | .finite s place => .finite (!s) place
    | .infinite s => .infinite (!s)
    | .nan => .nan
  else x

/-- The floating-point number that a scalar denotes. -/
def toFloat (t : Text) : Except YamlFault Binary64 :=
  let filled := (t.filter (· ≠ 0x5F)).map CodePoint.toLowerAscii
  if filled.isEmpty then .error tooShort
  else
    let (negative, digits) := splitSign filled
    -- The fill characters are gone and all letters are small, so one spelling of each word is enough.
    if digits = Text.ofString ".inf" then .ok (.infinite negative)
    else if digits = Text.ofString ".nan" then .ok .nan
    else if digits.contains 0x3A then do
      let places ← (Text.splitOn 0x3A digits).mapM readFloat
      pure (withSign negative (sumPlaces 1 .zero places.reverse))
    else (readFloat digits).map (withSign negative)

/-! ## Moments -/

def outOfRange (message : Text) : YamlFault := .scalar .value message

def checkDate (w : WrittenMoment) : Except YamlFault Date :=
  let d : Date := ⟨w.year, w.month, w.day⟩
  if w.year = 0 then .error (outOfRange "year 0 is out of range")
  else if w.month < 1 || 12 < w.month then .error (outOfRange "month must be in 1..12")
  else if w.day < 1 || Date.daysInMonth w.year w.month < w.day then
    .error (outOfRange "day is out of range for month")
  else .ok d

/-- A length of time as a literal: days and seconds, both only if they are not zero. -/
def durationLiteral (seconds : Int) : Text :=
  let days := seconds / 86400
  let rest := seconds % 86400
  let parts : List Text :=
    (if days = 0 then [] else ["days=" ++ Numeral.ofInt days]) ++
      (if rest = 0 then [] else ["seconds=" ++ Numeral.ofInt rest])
  "datetime.timedelta(" ++ Text.joinWith ", " parts ++ ")"

def checkOffset (offset : Option Int) : Except YamlFault (Option Int) :=
  match offset with
  | none => .ok none
  | some n =>
    if n.natAbs < 86400 then .ok (some n)
    else .error (outOfRange
      ("offset must be a timedelta strictly between -timedelta(hours=24) and timedelta(hours=24), not " ++
        durationLiteral n ++ "."))

/-- Microseconds from the digits of a fraction; digits beyond the sixth are dropped. -/
def microseconds (fraction : Text) : Nat :=
  let kept := fraction.take 6
  Numeral.toNat kept * Nat.pow 10 (6 - kept.length)

def toMoment (t : Text) : Except YamlFault Value :=
  match WrittenMoment.ofText? t with
  | none => .error (.scalar .property "'NoneType' object has no attribute 'groupdict'")
  | some w =>
    match w.time with
    | none => (checkDate w).map .date
    | some time => do
      -- The offset is made first, so it fails before the date does.
      let offset ← checkOffset time.offset
      let d ← checkDate w
      if 23 < time.hour then .error (outOfRange "hour must be in 0..23")
      else if 59 < time.minute then .error (outOfRange "minute must be in 0..59")
      else if 59 < time.second then .error (outOfRange "second must be in 0..59")
      else pure (.moment ⟨d, time.hour, time.minute, time.second, microseconds time.fraction,
        offset.map Offset.ofSeconds⟩)

/-! ## Octets and truth values -/

/-- The octets of base64 in which everything but digits and padding is passed over. -/
def readBase64 (p : Base64.Progress) : Text → Option Bytes
  | [] => if p.phase = 0 then some p.done.reverse else none
  | c :: rest =>
    if c = Base64.pad then
      let pads := p.pads + 1
      -- Padding too early in its group is passed over like any foreign character.
      if 2 ≤ p.phase then
        -- What follows a padded group is not read at all.
        if 4 ≤ p.phase + pads then some p.done.reverse else readBase64 { p with pads } rest
      else readBase64 p rest
    else
      match Base64.standard.value? c with
      | none => readBase64 p rest
      | some v => readBase64 (p.digit v) rest

def toBytes (t : Text) : Except YamlFault Bytes :=
  if t.all CodePoint.isAscii then
    match readBase64 .start t with
    | some b => .ok b
    | none => .error badValue
  else .error badValue

def toBool (t : Text) : Except YamlFault Bool :=
  let word := t.map CodePoint.toLowerAscii
  match truthWords.find? fun w => w.1 = word with
  | some w => .ok w.2
  | none => .error (.scalar .key (Text.quoted word))

def scalarValue (tag : Tag) (t : Text) : Except YamlFault Value :=
  match tag with
  | .null => .ok .null
  | .bool => (toBool t).map .bool
  | .int => (toInt t).map .int
  | .float => (toFloat t).map .float
  | .binary => (toBytes t).map .bytes
  | .moment => toMoment t
  | .text => .ok (.text t)
  | _ => .error badValue

end CanonStore.Yaml
