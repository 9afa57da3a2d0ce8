import CanonStore.Value
import CanonStore.Text.Quoted
import CanonStore.Json.Writer

/-!
# Showing values

How a value appears inside a message. `display` shows it as a literal, texts between quotes; `shown`
shows a text as itself. Both fail, at the first part in reading order that has no text, on an integer
with too many digits and on too many containers inside one another.
-/

namespace CanonStore

namespace Moment

/-- An offset from UTC as a literal: days, seconds and microseconds, each only if it is not zero. -/
def offsetLiteral (offset : Offset) : Text :=
  if offset = 0 then "datetime.timezone.utc"
  else
    let part (name : Text) (n : Int) : List Text := if n = 0 then [] else [name ++ "=" ++ Numeral.ofInt n]
    let seconds := offset.micros / 1000000
    let parts :=
      part "days" (seconds / 86400) ++ part "seconds" (seconds % 86400) ++
        part "microseconds" (offset.micros % 1000000)
    "datetime.timezone(datetime.timedelta(" ++ Text.joinWith ", " parts ++ "))"

/-- The moment as a literal; seconds and microseconds are left out while they are zero. -/
def literal (m : Moment) : Text :=
  let smallest : List Nat :=
    if m.micro ≠ 0 then [m.second, m.micro] else if m.second ≠ 0 then [m.second] else []
  let numbers : List Text :=
    Numeral.ofInt m.date.year :: ([m.date.month, m.date.day, m.hour, m.minute] ++ smallest).map Numeral.ofNat
  let zone : List Text :=
    match m.offset with
    | none => []
    | some offset => ["tzinfo=" ++ offsetLiteral offset]
  "datetime.datetime(" ++ Text.joinWith ", " (numbers ++ zone) ++ ")"

/-- An offset with its sign, hours and minutes, and with seconds and microseconds as far as there are any. -/
def fullOffsetText (offset : Offset) : Text :=
  let micros := offset.micros.natAbs
  let n := micros / 1000000
  let rest : Text :=
    if micros % 1000000 = 0 then if n % 60 = 0 then [] else ":" ++ Numeral.padded 2 (n % 60)
    else ":" ++ Numeral.padded 2 (n % 60) ++ "." ++ Numeral.padded 6 (micros % 1000000)
  (if offset.micros < 0 then "-" else "+" : Text) ++ Numeral.padded 2 (n / 3600) ++ ":" ++
    Numeral.padded 2 (n / 60 % 60) ++ rest

def spacedText (m : Moment) : Text :=
  m.date.text 4 ++ " " ++ m.clockText ++ m.microText ++
    (match m.offset with
     | none => []
     | some offset => fullOffsetText offset)

end Moment

namespace Date

def literal (d : Date) : Text :=
  "datetime.date(" ++ Text.joinWith ", " [Numeral.ofInt d.year, Numeral.ofNat d.month, Numeral.ofNat d.day] ++
    ")"

end Date

/-- Why a value cannot be shown. -/
inductive DisplayFault where
  /-- An integer with too many digits. -/
  | oversized
  /-- Too many containers inside one another. -/
  | tooDeep
deriving DecidableEq

namespace Value

/-- The numeral of an integer that is not too long. -/
def intText (n : Int) : Except DisplayFault Text :=
  if Json.isOversized n then .error .oversized else .ok (Numeral.ofInt n)

def boolText (b : Bool) : Text := if b then "True" else "False"

def memberText (m : Member) (value : Text) : Text := "<" ++ m.label ++ ": " ++ value ++ ">"

/-- Items in round brackets; a single one is followed by a comma. -/
def tupleText : List Text → Text
  | [t] => "(" ++ t ++ ",)"
  | ts => "(" ++ Text.joinWith ", " ts ++ ")"

/-- How many containers inside one another can be shown. Each puts one frame on the stack. -/
def maxDisplayDepth : Nat := 970

mutual

/-- A value as a literal; `depth` more containers may be opened. -/
def displayAt (depth : Nat) : Value → Except DisplayFault Text
  | .null => .ok "None"
  | .bool b => .ok (boolText b)
  | .int n => intText n
  | .float x => .ok x.text
  | .text t => .ok t.quoted
  | .textMember m t => .ok (memberText m t.quoted)
  | .intMember m n => (intText n).map (memberText m)
  | .member m v => if depth = 0 then .error .tooDeep else (displayAt (depth - 1) v).map (memberText m)
  | .list items =>
    if depth = 0 then .error .tooDeep
    else (displayItems (depth - 1) items).map fun ts => "[" ++ Text.joinWith ", " ts ++ "]"
  | .tuple items =>
    if depth = 0 then .error .tooDeep else (displayItems (depth - 1) items).map tupleText
  | .dict entries =>
    if depth = 0 then .error .tooDeep
    else (displayEntries (depth - 1) entries).map fun ts => "\x7b" ++ Text.joinWith ", " ts ++ "\x7d"
  | .bytes b => .ok (Text.quotedBytes b)
  | .bytearray b => .ok (Text.quotedBuffer b)
  | .moment m => .ok m.literal
  | .date d => .ok d.literal
  | .record type fields =>
    if depth = 0 then .error .tooDeep
    else (displayFields (depth - 1) fields).map fun ts => type.name ++ "(" ++ Text.joinWith ", " ts ++ ")"
  | .entry type fields =>
    if depth = 0 then .error .tooDeep
    else (displayFields (depth - 1) fields).map fun ts => type.name ++ "(" ++ Text.joinWith ", " ts ++ ")"
  | .foreign kind => .ok ("<" ++ kind.typeName ++ ">")
  | .endless .list => .ok "[[...]]"
  | .endless .dict => .ok "\x7b'self': \x7b...\x7d\x7d"

def displayItems (depth : Nat) : List Value → Except DisplayFault (List Text)
  | [] => .ok []
  | v :: rest => do
    let t ← displayAt depth v
    let ts ← displayItems depth rest
    pure (t :: ts)

def displayEntries (depth : Nat) : List (Value × Value) → Except DisplayFault (List Text)
  | [] => .ok []
  | (k, v) :: rest => do
    let t ← displayAt depth k
    let u ← displayAt depth v
    let ts ← displayEntries depth rest
    pure ((t ++ ": " ++ u) :: ts)

def displayFields (depth : Nat) : List (Text × Value) → Except DisplayFault (List Text)
  | [] => .ok []
  | (k, v) :: rest => do
    let u ← displayAt depth v
    let ts ← displayFields depth rest
    pure ((k ++ "=" ++ u) :: ts)

end

/-- A value as a literal. -/
def display (v : Value) : Except DisplayFault Text := displayAt maxDisplayDepth v

def display? (v : Value) : Option Text := v.display.toOption

/-- A value as text: a text as itself, everything else much as a literal. -/
def shown : Value → Except DisplayFault Text
  | .text t => .ok t
  | .textMember m _ | .member m _ => .ok m.label
  | .intMember _ n => intText n
  | .moment m => .ok m.spacedText
  | .date d => .ok (d.text 4)
  | .record _ fields => (displayFields maxDisplayDepth fields).map (Text.joinWith " ")
  | v => display v

def shown? (v : Value) : Option Text := v.shown.toOption

end Value

/-- The wording for an integer with too many digits to be written. -/
def Json.unwritableText : Text :=
  "Exceeds the limit (4300 digits) for integer string conversion; use sys.set_int_max_str_digits() to increase the limit"

end CanonStore
