import CanonStore.Schema.Accept
import CanonStore.Span

/-!
# Timestamps

A timestamp counts whole seconds since 1970-01-01 in UTC, before it or after, and the nanoseconds
within that second. Every 64-bit number of seconds is allowed; only those in the years 1 to 9999 have
a moment of the calendar and a text.

`Timestamp.ofUnixNanos?` and `toUnixNanos` convert to a single count of nanoseconds,
`Timestamp.ofMoment?` and `toMoment` to moments.
-/

namespace CanonStore

/-- A number of seconds with the nanoseconds within the second. -/
structure Timestamp where
  seconds : Int
  nanos : Nat
  seconds_ge : minTimestampSeconds ≤ seconds := by decide
  seconds_le : seconds ≤ maxTimestampSeconds := by decide
  nanos_lt : nanos < nanosPerSecond := by decide
deriving DecidableEq

/-- Why a timestamp has no moment: its seconds, and what does not fit when they are counted from the epoch. -/
structure OutsideCalendar where
  seconds : Int
  overflow : Overflow
deriving DecidableEq

namespace OutsideCalendar

def toFault (o : OutsideCalendar) : Fault :=
  .located .timestamp
    ("Timestamp seconds=" ++ Numeral.ofInt o.seconds ++ " is outside the calendar range " ++
      Numeral.ofInt Moment.minSeconds ++ ".." ++ Numeral.ofInt Moment.maxSeconds)
    none (some (.plain .overflow o.overflow.text)) [(.text "seconds", .int o.seconds)]

end OutsideCalendar

namespace Timestamp

/-- A timestamp of numbers that may break its bounds. -/
def ofParts? (seconds : Int) (nanos : Nat) : Option Timestamp :=
  if h : minTimestampSeconds ≤ seconds ∧ seconds ≤ maxTimestampSeconds ∧ nanos < nanosPerSecond then
    some ⟨seconds, nanos, h.1, h.2.1, h.2.2⟩
  else none

/-- The problem of a number of seconds beyond 64 bits. -/
def secondsProblem (seconds : Int) : Problem :=
  ⟨if maxTimestampSeconds < seconds then .notAtMost else .notAtLeast, [.name "seconds"]⟩

/-- Nanoseconds since 1970-01-01 as a timestamp, unless the seconds do not fit. -/
def ofUnixNanos? (n : Int) : Accepted Timestamp :=
  let seconds := n / nanosPerSecond
  match ofParts? seconds (n % nanosPerSecond).toNat with
  | some t => .ok t
  | none => .error [secondsProblem seconds]

def toUnixNanos (t : Timestamp) : Int := t.seconds * nanosPerSecond + t.nanos

def toRecord (t : Timestamp) : List (Text × Value) :=
  [("seconds", .int t.seconds), ("nanos", .int t.nanos)]

def toValue (t : Timestamp) : Value := .record .timestamp t.toRecord

def ofRecord? (fields : List (Text × Value)) : Option Timestamp :=
  match Value.field? "seconds" fields, Value.field? "nanos" fields with
  | some (.int seconds), some (.int nanos) =>
    if 0 ≤ nanos then ofParts? seconds nanos.toNat else none
  | _, _ => none

/-- The timestamp that a caller describes by fields. -/
def ofFields? (fields : List (Text × Value)) : Accepted Timestamp :=
  match RecordType.timestamp.make fields with
  | .error problems => .error problems
  | .ok (.record _ accepted) =>
    match ofRecord? accepted with
    | some t => .ok t
    | none => .fail .recordType
  | .ok _ => .fail .recordType

/-- The timestamp of a moment, if the moment has a date in UTC. -/
def ofMoment? (m : Moment) : Option Timestamp :=
  m.toUtc?.bind fun u => (ofUnixNanos? (u.toMicros * 1000)).toOption

/-- The moment that the seconds of a timestamp and a number of microseconds lead to from the epoch. -/
def calendar (t : Timestamp) (micro : Nat) : Except OutsideCalendar Moment :=
  ((Span.ofSeconds t.seconds micro).bind Moment.epoch.plus).mapError fun overflow => ⟨t.seconds, overflow⟩

/-- The moment of a timestamp; nanoseconds below a microsecond are cut off. -/
def toMoment (t : Timestamp) : Except OutsideCalendar Moment := t.calendar (t.nanos / 1000)

/-- The digits after the point: none, three, six or nine, as few as tell the nanoseconds. -/
def fractionText (nanos : Nat) : Text :=
  if nanos = 0 then []
  else if nanos % 1000000 = 0 then "." ++ Numeral.padded 3 (nanos / 1000000)
  else if nanos % 1000 = 0 then "." ++ Numeral.padded 6 (nanos / 1000)
  else "." ++ Numeral.padded 9 nanos

/-- The text of a timestamp: its moment in UTC with four digits for the year. -/
def text (t : Timestamp) : Except OutsideCalendar Text :=
  (t.calendar 0).map fun m => m.date.text 4 ++ "T" ++ m.clockText ++ fractionText t.nanos ++ "Z"

def compare (s t : Timestamp) : Ordering := Ord.compare s.toUnixNanos t.toUnixNanos

end Timestamp

end CanonStore
