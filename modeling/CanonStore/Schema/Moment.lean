import CanonStore.Calendar
import CanonStore.Binary64.Reader
import CanonStore.Fault

/-!
# Reading moments

A moment may be given as text or as a count. `Moment.ofText?` reads a date, perhaps with a time of
day, perhaps with an offset. `Moment.ofCount` takes seconds or, if the number is large, milliseconds
since 1970-01-01 in UTC, between the years 1600 and 9999.
-/

namespace CanonStore.Moment

/-! ## Counts -/

/-- The largest count that is taken as seconds. -/
def secondsLimit : Nat := 20000000000

def firstCount : Int := -11676096000

/-- The moment of a count with additional microseconds. -/
def ofCount (n : Int) (micros : Nat) : Except ProblemKind Moment :=
  -- Large counts are milliseconds. The division rounds down, so the fraction counts forward before 1970
  -- too.
  let seconds := if n.natAbs ≤ secondsLimit then n else n / 1000
  let fraction := if n.natAbs ≤ secondsLimit then 0 else (n % 1000).toNat * 1000
  let total := fraction + micros
  -- The additional microseconds may carry into the next second.
  let seconds := seconds + (total / 1000000 : Nat)
  if seconds < firstCount || maxSeconds < seconds then .error .momentParsing
  else .ok (ofSeconds seconds (total % 1000000))

/-- The moment of a count that is not whole: the part after the point counts forward from the whole
number below, to the nearest microsecond. -/
def ofFractionalCount (x : Binary64) : Except ProblemKind Moment :=
  match x.toScaled? with
  | none => .error .momentParsing
  | some scaled =>
    let fraction := scaled.natAbs % Binary64.scaledOne
    -- The product is a float and rounded as one, before it is rounded to a whole number.
    let product := Binary64.ofQuotient false (fraction * 1000000) Binary64.scaledOne
    let micros :=
      match product.toScaled? with
      | none => 0
      | some m => (2 * m.natAbs + Binary64.scaledOne) / (2 * Binary64.scaledOne)
    ofCount (scaled / Binary64.scaledOne) micros

/-! ## Texts -/

/-- Exactly `count` digits at the start of a text, and what follows. -/
def takeNumber? (count : Nat) (t : Text) : Option (Nat × Text) :=
  let ds := t.take count
  if ds.length = count && ds.all CodePoint.isDigit then some (Numeral.toNat ds, t.drop count) else none

/-- Drops a given code point at the start of a text. -/
def skip? (c : CodePoint) : Text → Option Text
  | d :: rest => if d = c then some rest else none
  | [] => none

def takeDate? (t : Text) : Option (Date × Text) := do
  let (year, t) ← takeNumber? 4 t
  let t ← skip? 0x2D t
  let (month, t) ← takeNumber? 2 t
  let t ← skip? 0x2D t
  let (day, t) ← takeNumber? 2 t
  let date : Date := ⟨year, month, day⟩
  if date.isValid then some (date, t) else none

/-- A point or comma and at least one digit, read to the microsecond, and what follows. -/
def takeFraction? : Text → Option (Nat × Text)
  | [] => some (0, [])
  | c :: rest =>
    if c = '.' || c = ',' then
      let (ds, after) := Binary64.takeDigits rest
      if ds.isEmpty then none
      else some (Numeral.toNat ((ds ++ List.replicate 6 0x30).take 6), after)
    else some (0, c :: rest)

/-- Seconds with a fraction after a colon, if there is one, and what follows. -/
def takeSeconds? : Text → Option (Nat × Nat × Text)
  | [] => some (0, 0, [])
  | c :: rest =>
    if c = ':' then do
      let (second, t) ← takeNumber? 2 rest
      let (micro, t) ← takeFraction? t
      if second < 60 then some (second, micro, t) else none
    else some (0, 0, c :: rest)

/-- The offset that a whole text denotes: nothing, `Z`, or a sign with hours and minutes. -/
def offset? : Text → Option (Option Offset)
  | [] => some none
  | c :: rest =>
    if c = 'Z' || c = 'z' then if rest.isEmpty then some (some 0) else none
    else if c = '+' || c = '-' then do
      let (hours, t) ← takeNumber? 2 rest
      let t := (skip? 0x3A t).getD t
      let (minutes, t) ← takeNumber? 2 t
      if t.isEmpty && hours < 24 && minutes < 60 then
        let n := Offset.ofSeconds (hours * 3600 + minutes * 60 : Nat)
        some (some (if c = '-' then -n else n))
      else none
    else none

/-- A time of day with an offset that is a whole text, on a given date. -/
def timeOn? (date : Date) (t : Text) : Option Moment := do
  let (hour, t) ← takeNumber? 2 t
  let t ← skip? 0x3A t
  let (minute, t) ← takeNumber? 2 t
  let (second, micro, t) ← takeSeconds? t
  let offset ← offset? t
  -- The ranges are looked at last; all of the text has been read by then.
  if hour < 24 && minute < 60 then some ⟨date, hour, minute, second, micro, offset⟩ else none

def isSeparator (c : CodePoint) : Bool := c = 'T' || c = 't' || c = ' ' || c = '_'

/-- A date alone, which is its midnight, or a date and a time. -/
def ofCalendarText? (t : Text) : Option Moment := do
  let (date, rest) ← takeDate? t
  match rest with
  | [] => some ⟨date, 0, 0, 0, 0, none⟩
  | c :: time => if isSeparator c then timeOn? date time else none

/-- A count written in decimal, perhaps with a fraction. -/
def ofCountText? (t : Text) : Option Moment :=
  let (negative, digits) := Binary64.takeSign t
  let (whole, rest) := Binary64.takeDigits digits
  if whole.isEmpty then none
  else match rest with
    -- A count without a point stays exact.
    | [] =>
      let n : Int := Numeral.toNat whole
      (ofCount (if negative then -n else n) 0).toOption
    | c :: after =>
      if c = '.' && !after.isEmpty && after.all CodePoint.isDigit then
        match Binary64.decimal? negative digits with
        | some x => (ofFractionalCount x).toOption
        | none => none
      else none

def ofText? (t : Text) : Option Moment := ofCalendarText? t <|> ofCountText? t

end CanonStore.Moment
