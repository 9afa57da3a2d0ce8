import CanonStore.Numeral

/-!
# The calendar

Dates of the proleptic Gregorian calendar and their count of days, and moments: a date with a time of
day to the microsecond and perhaps an offset from UTC. `Date.ofDays` and `Date.toDays` convert between
dates and days since 1970-01-01; `Moment.toMicros` and `Moment.ofMicros` do so for moments.
-/

namespace CanonStore

/-- A date of the calendar. -/
structure Date where
  year : Int
  month : Nat
  day : Nat
deriving DecidableEq

namespace Date

def isLeap (year : Int) : Bool := year % 4 = 0 && (year % 100 ≠ 0 || year % 400 = 0)

def daysInMonth (year : Int) (month : Nat) : Nat :=
  if month = 2 then (if isLeap year then 29 else 28)
  else if month = 4 || month = 6 || month = 9 || month = 11 then 30
  else 31

/-- Days from 0001-01-01 to the first day of a year. -/
def daysBeforeYear (year : Int) : Int :=
  (year - 1) * 365 + (year - 1) / 4 - (year - 1) / 100 + (year - 1) / 400

def daysBeforeMonth (year : Int) (month : Nat) : Nat :=
  [0, 0, 31, 59, 90, 120, 151, 181, 212, 243, 273, 304, 334].getD month 334 +
    (if 2 < month && isLeap year then 1 else 0)

def epochDays : Int := 719162

def toDays (d : Date) : Int :=
  daysBeforeYear d.year + daysBeforeMonth d.year d.month + d.day - 1 - epochDays

/-- The year that holds the day which comes `n` days after 0001-01-01: whole cycles of 400, 100, 4 and
one years are taken off in turn, and the last day of a long cycle still belongs to it. -/
def yearOfDay (n : Int) : Int :=
  let r400 := n % 146097
  let n100 := min (r400 / 36524) 3
  let r100 := r400 - n100 * 36524
  let n4 := r100 / 1461
  let n1 := min (r100 % 1461 / 365) 3
  n / 146097 * 400 + n100 * 100 + n4 * 4 + n1 + 1

/-- The month that holds the day which comes `n` days after the first day of a year. -/
def monthOfDay (year : Int) (n : Nat) : Nat :=
  (([12, 11, 10, 9, 8, 7, 6, 5, 4, 3, 2].find? fun m => daysBeforeMonth year m ≤ n)).getD 1

/-- The date that comes a number of days after 1970-01-01. -/
def ofDays (days : Int) : Date :=
  let n := days + epochDays
  let year := yearOfDay n
  let dayOfYear := (n - daysBeforeYear year).toNat
  let month := monthOfDay year dayOfYear
  ⟨year, month, dayOfYear - daysBeforeMonth year month + 1⟩

/-- The date exists and its year has at most four digits. -/
def isValid (d : Date) : Bool :=
  1 ≤ d.year && d.year ≤ 9999 && 1 ≤ d.month && d.month ≤ 12 && 1 ≤ d.day &&
    d.day ≤ daysInMonth d.year d.month

/-- Year, month and day with hyphens, the year filled up to a width. -/
def text (yearWidth : Nat) (d : Date) : Text :=
  Numeral.padded yearWidth d.year.toNat ++ "-" ++ Numeral.padded 2 d.month ++ "-" ++
    Numeral.padded 2 d.day

end Date

/-- How far a clock is ahead of UTC, in microseconds. -/
structure Offset where
  micros : Int
deriving DecidableEq

namespace Offset

def ofSeconds (seconds : Int) : Offset := ⟨seconds * 1000000⟩

/-- The nearest number of seconds; a half is rounded away from zero. -/
def seconds (o : Offset) : Int :=
  let n : Int := (2 * o.micros.natAbs + 1000000) / 2000000
  if o.micros < 0 then -n else n

/-- Numbers are offsets in seconds. -/
instance : Coe Int Offset := ⟨ofSeconds⟩

/-- Where a number is asked for, an offset is that of its seconds. -/
instance : Coe Offset Int := ⟨seconds⟩

instance (n : Nat) : OfNat Offset n := ⟨ofSeconds n⟩

instance : Neg Offset := ⟨fun o => ⟨-o.micros⟩⟩

/-- The clock is less than a day away from UTC. -/
def isValid (o : Offset) : Bool := o.micros.natAbs < 86400000000

end Offset

/-- A date and a time of day, with the offset from UTC if it is known. -/
structure Moment where
  date : Date
  hour : Nat
  minute : Nat
  second : Nat
  micro : Nat
  offset : Option Offset
deriving DecidableEq

namespace Moment

/-- Seconds from the start of 1970-01-01 to the moment on its own clock. -/
def localSeconds (m : Moment) : Int :=
  m.date.toDays * 86400 + m.hour * 3600 + m.minute * 60 + m.second

/-- Microseconds from the start of 1970-01-01 to the moment on its own clock. -/
def localMicros (m : Moment) : Int := m.localSeconds * 1000000 + m.micro

/-- Microseconds from the epoch to the moment; without an offset its clock shows UTC. -/
def toMicros (m : Moment) : Int := m.localMicros - m.offset.elim 0 Offset.micros

/-- The moment in UTC that comes so many seconds after the epoch, with microseconds. -/
def ofSeconds (seconds : Int) (micro : Nat) : Moment :=
  let s := (seconds % 86400).toNat
  ⟨Date.ofDays (seconds / 86400), s / 3600, s / 60 % 60, s % 60, micro, some 0⟩

def minSeconds : Int := -62135596800

def maxSeconds : Int := 253402300799

def inCalendar (seconds : Int) : Bool := minSeconds ≤ seconds && seconds ≤ maxSeconds

/-- The same moment in UTC; none if its date in UTC lies outside the years 1 to 9999. -/
def toUtc? (m : Moment) : Option Moment :=
  match m.offset with
  | none => some { m with offset := some 0 }
  | some offset =>
    let micros := m.localMicros - offset.micros
    let seconds := micros / 1000000
    if inCalendar seconds then some (ofSeconds seconds (micros % 1000000).toNat) else none

def clockText (m : Moment) : Text :=
  Numeral.padded 2 m.hour ++ ":" ++ Numeral.padded 2 m.minute ++ ":" ++ Numeral.padded 2 m.second

/-- A point and six digits, or nothing for a whole second. -/
def microText (m : Moment) : Text := if m.micro = 0 then [] else "." ++ Numeral.padded 6 m.micro

/-- The canonical text: in UTC, the year without leading zeros, microseconds only if there are any. -/
def canonicalText? (m : Moment) : Option Text :=
  m.toUtc?.map fun u => u.date.text 1 ++ "T" ++ u.clockText ++ u.microText ++ "Z"

/-- An offset as hours and minutes, `Z` for none at all; seconds are dropped. -/
def offsetText (offset : Int) : Text :=
  if offset = 0 then "Z"
  else
    let minutes := offset.natAbs / 60
    (if offset < 0 then "-" else "+" : Text) ++ Numeral.padded 2 (minutes / 60) ++ ":" ++
      Numeral.padded 2 (minutes % 60)

/-- The text on the moment's own clock: four digits for the year, the offset to the nearest second if it is
known. -/
def isoText (m : Moment) : Text :=
  m.date.text 4 ++ "T" ++ m.clockText ++ m.microText ++
    (match m.offset with
     | none => []
     | some offset => offsetText offset.seconds)

def isValid (m : Moment) : Bool :=
  m.date.isValid && m.hour < 24 && m.minute < 60 && m.second < 60 && m.micro < 1000000 &&
    (match m.offset with
     | none => true
     | some offset => offset.isValid)

end Moment

end CanonStore
