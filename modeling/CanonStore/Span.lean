import CanonStore.Calendar

/-!
# Spans of time

A span of time has a number of days, back or forward, and seconds and microseconds that count forward within
the last day. `Moment.plus` goes on from a moment by a span. Both spans and dates are bounded, and whatever
exceeds a bound is an `Overflow`: a span may reach far beyond the calendar, a moment may not.
-/

namespace CanonStore

/-- What does not fit: a number of days into a machine integer or into a span, or a date into the calendar. -/
inductive Overflow where
  | machine
  | span (days : Int)
  | date
deriving DecidableEq

/-- The largest number of days that a span may have, back or forward. -/
def maxSpanDays : Nat := 999999999

def Overflow.text : Overflow → Text
  | .machine => "Python int too large to convert to C int"
  | .span days => "days=" ++ Numeral.ofInt days ++ "; must have magnitude <= " ++ Numeral.ofNat maxSpanDays
  | .date => "date value out of range"

/-- A span of time. -/
structure Span where
  days : Int
  seconds : Nat
  micros : Nat
  natAbs_days_le : days.natAbs ≤ maxSpanDays := by decide
  seconds_lt : seconds < 86400 := by decide
  micros_lt : micros < 1000000 := by decide
deriving DecidableEq

namespace Span

/-- The microseconds of a span. -/
def toMicros (s : Span) : Int := (s.days * 86400 + s.seconds) * 1000000 + s.micros

/-- The span of so many microseconds. Its days have to fit into 32 bits first, then into a span. -/
def ofMicros (n : Int) : Except Overflow Span :=
  let days := n / 1000000 / 86400
  if days < -0x80000000 ∨ 0x80000000 ≤ days then .error .machine
  else if h : days.natAbs ≤ maxSpanDays then
    .ok ⟨days, (n / 1000000 % 86400).toNat, (n % 1000000).toNat, h, by omega, by omega⟩
  else .error (.span days)

/-- The span of seconds with additional microseconds. -/
def ofSeconds (seconds : Int) (micros : Nat) : Except Overflow Span := ofMicros (seconds * 1000000 + micros)

end Span

namespace Moment

/-- The first moment of 1970-01-01 in UTC. -/
def epoch : Moment := ⟨⟨1970, 1, 1⟩, 0, 0, 0, 0, some 0⟩

/-- The moment that comes a span later on the same clock. What is too much for microseconds, seconds, minutes
and hours is carried over, in the end to the days; the date has to lie within the years 1 to 9999. -/
def plus (m : Moment) (s : Span) : Except Overflow Moment :=
  let micro := m.micro + s.micros
  let second := m.second + s.seconds + micro / 1000000
  let minute := m.minute + second / 60
  let hour := m.hour + minute / 60
  let date := Date.ofDays (m.date.toDays + s.days + (hour / 24 : Nat))
  if 1 ≤ date.year ∧ date.year ≤ 9999 then
    .ok ⟨date, hour % 24, minute % 60, second % 60, micro % 1000000, m.offset⟩
  else .error .date

end Moment

end CanonStore
