import CanonStore.Proofs.Canonical.Failure
import CanonStore.Proofs.Span
import CanonStore.Timestamp

/-!
# Which timestamps have a moment

The moment of a timestamp is what its seconds lead to from the epoch. On the way there is a span, which may be
too long, and a date, which may lie outside the calendar. Only the latter bound counts: a span that is too long
leads out of the calendar as well (`inCalendar_of_calendar`), and every number of seconds in the calendar makes a
span (`calendar_of_inCalendar`). Microseconds stay within the second, so they never lead across a bound.

Main statement: `toMoment_text_iff`, on moments and texts alike and on what is reported where there are none.
-/

namespace CanonStore

open Value (lookup?)

namespace Moment

/-- The seconds lead from the epoch to the moment that comes so many seconds after it. -/
theorem plus_epoch {seconds : Int} {micro : Nat} {s : Span} (hs : Span.ofSeconds seconds micro = .ok s)
    (hmicro : micro < 1000000) :
    epoch.plus s = if inCalendar seconds then .ok (ofSeconds seconds micro) else .error .date := by
  have htotal : epoch.localMicros + s.toMicros = seconds * 1000000 + micro := by
    rw [Span.toMicros_of_ofMicros hs]
    exact Int.zero_add _
  have hseconds : (seconds * 1000000 + micro) / 1000000 = seconds := by omega
  have hrest : ((seconds * 1000000 + micro) % 1000000).toNat = micro := by omega
  rw [plus_eq, htotal, hseconds, hrest]
  rfl

end Moment

/-- The fault is the report of a timestamp that is not valid because of an overflow, with the seconds among the
details. -/
def Fault.TellsSeconds (fault : Fault) (seconds : Int) : Prop :=
  ∃ content overflow, fault = .report .timestamp content (some (.plain .overflow overflow)) ∧
    content.code = .text "TIMESTAMP_INVALID" ∧
    ∃ entries, content.details = .dict entries ∧ lookup? "seconds" entries = some (.int seconds)

theorem OutsideCalendar.tellsSeconds_toFault (o : OutsideCalendar) : o.toFault.TellsSeconds o.seconds :=
  ⟨_, _, rfl, rfl, _, rfl, rfl⟩

namespace Timestamp

variable {t : Timestamp} {micro : Nat} {m : Moment} {o : OutsideCalendar} {s : Text}

/-! ## The calendar -/

theorem calendar_of_inCalendar (h : Moment.inCalendar t.seconds) (hmicro : micro < 1000000) :
    t.calendar micro = .ok (Moment.ofSeconds t.seconds micro) := by
  have hrange := Moment.inCalendar_iff.mp h
  obtain ⟨s, hs⟩ := Span.exists_ofMicros (n := t.seconds * 1000000 + micro) (by unfold maxSpanDays; omega)
  have hplus := Moment.plus_epoch hs hmicro
  rw [if_pos h] at hplus
  rw [calendar, Span.ofSeconds, hs]
  exact mapError_eq_ok_iff.mpr hplus

/-- Seconds that lead to a moment are those of the calendar. -/
theorem inCalendar_of_calendar (h : t.calendar micro = .ok m) (hmicro : micro < 1000000) :
    Moment.inCalendar t.seconds := by
  obtain ⟨s, hs, hplus⟩ := bind_eq_ok_iff.mp (mapError_eq_ok_iff.mp h)
  rw [Moment.plus_epoch hs hmicro] at hplus
  split at hplus
  · next hin => exact hin
  · cases hplus

theorem exists_calendar_iff (hmicro : micro < 1000000) :
    (∃ m, t.calendar micro = .ok m) ↔ -62135596800 ≤ t.seconds ∧ t.seconds ≤ 253402300799 := by
  rw [← Moment.inCalendar_iff]
  constructor
  · rintro ⟨m, hm⟩
    exact inCalendar_of_calendar hm hmicro
  · intro h
    exact ⟨_, calendar_of_inCalendar h hmicro⟩

/-- The microseconds in the nanoseconds of a timestamp. -/
theorem nanos_div_lt (t : Timestamp) : t.nanos / 1000 < 1000000 := by
  have hlt := t.nanos_lt
  unfold nanosPerSecond at hlt
  omega

theorem exists_text_iff : (∃ s, t.text = .ok s) ↔ ∃ m, t.calendar 0 = .ok m := by
  constructor
  · rintro ⟨s, hs⟩
    obtain ⟨m, hm, _⟩ := map_eq_ok_iff.mp hs
    exact ⟨m, hm⟩
  · rintro ⟨m, hm⟩
    exact ⟨_, map_eq_ok_iff.mpr ⟨m, hm, rfl⟩⟩

/-! ## What is reported -/

/-- The overflow is reported with the seconds that led to it. -/
theorem seconds_of_calendar_error (h : t.calendar micro = .error o) : o.seconds = t.seconds := by
  obtain ⟨overflow, _, rfl⟩ := mapError_eq_error_iff.mp h
  rfl

theorem seconds_of_error (h : t.toMoment = .error o ∨ t.text = .error o) : o.seconds = t.seconds := by
  rcases h with h | h
  · exact seconds_of_calendar_error h
  · exact seconds_of_calendar_error (map_eq_error_iff.mp h)

/-- A timestamp has a moment exactly if its seconds are those of the years 1 to 9999, whatever its nanoseconds
are, and so it is with its text and with any number of microseconds within the second. Otherwise its seconds are
reported. -/
theorem toMoment_text_iff (t : Timestamp) :
    ((∃ m, t.toMoment = .ok m) ↔ -62135596800 ≤ t.seconds ∧ t.seconds ≤ 253402300799) ∧
      ((∃ s, t.text = .ok s) ↔ -62135596800 ≤ t.seconds ∧ t.seconds ≤ 253402300799) ∧
      (∀ micro < 1000000, (∃ m, t.calendar micro = .ok m) ↔
        -62135596800 ≤ t.seconds ∧ t.seconds ≤ 253402300799) ∧
      ∀ o, t.toMoment = .error o ∨ t.text = .error o → o.toFault.TellsSeconds t.seconds := by
  refine ⟨exists_calendar_iff t.nanos_div_lt, ?_, fun micro hmicro => exists_calendar_iff hmicro, ?_⟩
  · rw [exists_text_iff]
    exact exists_calendar_iff (by decide)
  · intro o h
    rw [← seconds_of_error h]
    exact o.tellsSeconds_toFault

/-- The last nanosecond before the calendar. -/
theorem toMoment_text_iff_beforeCalendar :
    ∃ t : Timestamp, t.seconds = -62135596801 ∧ t.nanos = 999999999 ∧
      (¬ ∃ m, t.toMoment = .ok m) ∧ (¬ ∃ s, t.text = .ok s) ∧ (¬ ∃ m, t.calendar 999999 = .ok m) ∧
      ∃ o, t.toMoment = .error o ∧ o.toFault.TellsSeconds t.seconds := by
  obtain ⟨hmoment, htext, hmicro, hfault⟩ := toMoment_text_iff ⟨-62135596801, 999999999, by decide, by decide, by decide⟩
  have hout : ¬ (-62135596800 ≤ (-62135596801 : Int) ∧ (-62135596801 : Int) ≤ 253402300799) := by decide
  refine ⟨_, rfl, rfl, mt hmoment.mp hout, mt htext.mp hout, mt (hmicro 999999 (by decide)).mp hout, ?_⟩
  exact ⟨_, rfl, hfault _ (.inl rfl)⟩

end Timestamp

end CanonStore
