import CanonStore.Schema.Moment
import CanonStore.Base64
import CanonStore.Text.Blank
import CanonStore.Text.Utf8

/-!
# Scalars from values

The generous conversions by which a record accepts a field: an integer may come as text, as a whole
float or as a truth value, octets as base64 text, a moment as a count of seconds. Each conversion
either gives the exact scalar or says what kind of problem the value has.
-/

namespace CanonStore

/-- Where a value comes from: handed over by a caller, or read from a document. -/
inductive Origin where
  | caller
  | document
deriving DecidableEq

namespace Scalar

/-- The text that a value spells: a text itself, or octets in UTF-8. Octets that are no text are the
given problem. -/
def spelled? (bad : ProblemKind) : Value → Except ProblemKind (Option Text)
  | .text t | .textMember _ t => .ok (some t)
  | .bytes b | .bytearray b =>
    match Utf8.decode false b with
    | .ok t => .ok (some t)
    | .error _ => .error bad
  | _ => .ok none

/-! ## Texts and octets -/

/-- A text without surrogates. -/
def whole (t : Text) : Except ProblemKind Text :=
  if t.any CodePoint.isSurrogate then .error .textUnicode else .ok t

/-- A text. Surrogates are refused; a member gives the text of its value. -/
def text : Value → Except ProblemKind Text
  | .text t | .textMember _ t => whole t
  | .intMember _ n => .ok (Numeral.ofInt n)
  | .member _ v => whole (v.shown?.getD [])
  | .bytes b | .bytearray b =>
    match Utf8.decode false b with
    | .ok t => .ok t
    | .error _ => .error .textUnicode
  | _ => .error .textType

def bytes : Value → Except ProblemKind Bytes
  | .bytes b | .bytearray b => .ok b
  | .text t | .textMember _ t =>
    match Base64.decodeAny? t with
    | some b => .ok b
    | none => .error .bytesEncoding
  | _ => .error .bytesType

/-! ## Integers -/

/-- Removes underscores that stand alone between other code points. -/
def dropUnderscores? (t : Text) : Option Text :=
  -- An underscore at either end or next to another one leaves an empty part.
  if t.head? = some 0x5F || t.getLast? = some 0x5F || (Text.splitOn 0x5F t).any List.isEmpty then none
  else some (t.filter fun c => c ≠ '_')

def dropZeroFraction (t : Text) : Text :=
  match t.dropWhile fun c : CodePoint => c ≠ '.' with
  | _ :: zeros => if zeros.all fun c : CodePoint => c = '0' then t.takeWhile fun c : CodePoint => c ≠ '.' else t
  | [] => t

/-- The integer that a numeral without sign denotes. -/
def unsigned? (t : Text) : Option Nat := do
  let ds ← dropUnderscores? (dropZeroFraction t)
  if !ds.isEmpty && ds.all CodePoint.isDigit then some (Numeral.toNat ds) else none

/-- The integer that a text denotes: blanks around it, a sign, underscores between digits and a
fraction of zeros are allowed. -/
def intOfText (t : Text) : Except ProblemKind Int :=
  let t := t.trim
  -- The whole text counts, with its sign and its underscores.
  if Json.maxDigits < t.length then .error .intParsingSize
  else
    let (negative, digits) := Binary64.takeSign t
    match unsigned? digits with
    | some n => .ok (if negative then -(n : Int) else n)
    | none => .error .intParsing

def intOfFloat (x : Binary64) : Except ProblemKind Int :=
  if !x.isFinite then .error .finiteNumber
  else match x.toInt? with
    | none => .error .intFromFloat
    -- Floats are read through words of 64 bits, integers are not.
    | some n => if n.natAbs < 0x8000000000000000 then .ok n else .error .intParsingSize

def int (v : Value) : Except ProblemKind Int := do
  match ← spelled? .intParsing v with
  | some t => intOfText t
  | none =>
    match v with
    | .bool b => .ok (if b then 1 else 0)
    | .int n | .intMember _ n => .ok n
    | .float x => intOfFloat x
    | .foreign .decimal => .error .intFromFloat
    | _ => .error .intType

/-! ## Floats and truth values -/

/-- The float that a text denotes, with blanks around it and underscores between digits allowed. -/
def floatOfText (t : Text) : Except ProblemKind Binary64 :=
  match Binary64.ofText? t.trim <|> (dropUnderscores? t.trim).bind Binary64.ofText? with
  | some x => .ok x
  | none => .error .floatParsing

/-- A float. An integer beyond the finite floats is infinite in a document and no float elsewhere. -/
def float (origin : Origin) (v : Value) : Except ProblemKind Binary64 := do
  match ← spelled? .floatParsing v with
  | some t => floatOfText t
  | none =>
    match v with
    | .float x => .ok x
    | .bool b => .ok (Binary64.ofInt (if b then 1 else 0))
    | .int n | .intMember _ n =>
      let x := Binary64.ofInt n
      if x.isFinite || origin = .document then .ok x else .error .floatType
    | .foreign .decimal => .ok (Binary64.ofDecimal false 15 (-1))
    | _ => .error .floatType

def trueWords : List Text := ["1", "on", "t", "true", "y", "yes"]

def falseWords : List Text := ["0", "off", "f", "false", "n", "no"]

/-- The truth value that a word stands for, in letters of either case. -/
def boolOfText (t : Text) : Except ProblemKind Bool :=
  let word := t.map CodePoint.toLowerAscii
  if trueWords.contains word then .ok true
  else if falseWords.contains word then .ok false
  else .error .boolParsing

/-- The truth value that zero or one stands for. -/
def boolOfInt (n : Int) : Except ProblemKind Bool :=
  if n = 0 then .ok false else if n = 1 then .ok true else .error .boolParsing

def bool (v : Value) : Except ProblemKind Bool := do
  match ← spelled? .boolParsing v with
  | some t => boolOfText t
  | none =>
    match v with
    | .bool b => .ok b
    | .int n | .intMember _ n => boolOfInt n
    -- Whatever keeps a float from being an integer is one problem here: it is no truth value.
    | .float x =>
      match intOfFloat x with
      | .ok n => boolOfInt n
      | .error _ => .error .boolType
    | _ => .error .boolType

/-! ## Moments -/

def moment (v : Value) : Except ProblemKind Moment := do
  match ← spelled? .momentFromDateParsing v with
  | some t =>
    match Moment.ofText? t with
    | some m => .ok m
    | none => .error .momentFromDateParsing
  | none =>
    match v with
    | .moment m => .ok m
    -- A date is its midnight, without an offset.
    | .date d => .ok ⟨d, 0, 0, 0, 0, none⟩
    | .int n | .intMember _ n => Moment.ofCount n 0
    | .float x => Moment.ofFractionalCount x
    | _ => .error .momentType

end Scalar

end CanonStore
