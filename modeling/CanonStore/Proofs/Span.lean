import CanonStore.Proofs.Calendar
import CanonStore.Span

/-!
# Going on by a span of time

The years 1 to 9999 are made of the days that the calendar has (`Date.year_ofDays_iff`), so going on by a span
leads to a moment exactly if the seconds that it leads to are those of the calendar. The moment then has the
microseconds of the span more on its clock (`Moment.plus_eq`): carrying them over loses nothing.
-/

namespace CanonStore

namespace Date

/-- A day lies in one of the 400 years of its cycle. -/
theorem yearOfDay_bounds (n : Int) :
    n / 146097 * 400 < yearOfDay n ∧ yearOfDay n ≤ n / 146097 * 400 + 400 := by
  have hrange : 0 ≤ n % 146097 ∧ n % 146097 < 146097 := by omega
  simp only [yearOfDay]
  generalize n % 146097 = r400 at *
  generalize hn100 : min (r400 / 36524) 3 = n100
  have h100 : 0 ≤ n100 ∧ n100 ≤ 3 := by omega
  have hr100 : 0 ≤ r400 - n100 * 36524 ∧ r400 - n100 * 36524 ≤ 36524 := by omega
  generalize r400 - n100 * 36524 = r100 at *
  have h4 : 0 ≤ r100 / 1461 ∧ r100 / 1461 ≤ 24 := by omega
  have h1 : 0 ≤ min (r100 % 1461 / 365) 3 ∧ min (r100 % 1461 / 365) 3 ≤ 3 := by omega
  omega

/-- A day before the first one of the calendar lies in a year before the year 1. -/
theorem yearOfDay_lt_one {n : Int} (h : n < 0) : yearOfDay n < 1 := by
  obtain ⟨_, hlast⟩ := yearOfDay_bounds n
  omega

/-- A day after the last one of the calendar lies in a year after the year 9999. -/
theorem lt_yearOfDay {n : Int} (h : 3652059 ≤ n) : 9999 < yearOfDay n := by
  obtain ⟨hfirst, _⟩ := yearOfDay_bounds n
  by_cases hcycle : 25 ≤ n / 146097
  · omega
  · -- The calendar ends in its 25th cycle, a year before the cycle does.
    have hcycles : n / 146097 = 24 := by omega
    have hlate : 145731 ≤ n % 146097 ∧ n % 146097 < 146097 := by omega
    simp only [yearOfDay, hcycles]
    generalize n % 146097 = r400 at *
    have h100 : min (r400 / 36524) 3 = 3 := by omega
    have h4 : (r400 - 3 * 36524) / 1461 = 24 := by omega
    have h1 : min ((r400 - 3 * 36524) % 1461 / 365) 3 = 3 := by omega
    simp only [h100, h4, h1]
    decide

/-- The days of the calendar are those that lie in its years. -/
theorem year_ofDays_iff {days : Int} :
    (1 ≤ (ofDays days).year ∧ (ofDays days).year ≤ 9999) ↔ -719162 ≤ days ∧ days ≤ 2932896 := by
  constructor
  · rintro ⟨hfirst, hlast⟩
    have hstart := mt (yearOfDay_lt_one (n := days + epochDays)) (Int.not_lt.mpr hfirst)
    have hend := mt (lt_yearOfDay (n := days + epochDays)) (Int.not_lt.mpr hlast)
    unfold epochDays at hstart hend
    omega
  · rintro ⟨hfirst, hlast⟩
    obtain ⟨hdate, _⟩ := toDays_ofDays hfirst hlast
    exact (isValid_iff.mp hdate).1

end Date

namespace Span

/-- A span has the microseconds that it was made of. -/
theorem toMicros_of_ofMicros {n : Int} {s : Span} (h : ofMicros n = .ok s) : s.toMicros = n := by
  simp only [ofMicros] at h
  split at h
  · cases h
  · split at h
    · cases h
      simp only [toMicros]
      omega
    · cases h

/-- Microseconds make a span if there are no more days in them than a span may have. -/
theorem exists_ofMicros {n : Int} (h : (n / 1000000 / 86400).natAbs ≤ maxSpanDays) :
    ∃ s, ofMicros n = .ok s := by
  have hmachine : ¬ (n / 1000000 / 86400 < -0x80000000 ∨ 0x80000000 ≤ n / 1000000 / 86400) := by
    unfold maxSpanDays at h
    omega
  simp only [ofMicros]
  rw [if_neg hmachine, dif_pos h]
  exact ⟨_, rfl⟩

end Span

namespace Moment

variable {m : Moment}

/-- Going on by a span adds its microseconds to those on the clock, as far as the calendar reaches. -/
theorem plus_eq (m : Moment) (s : Span) :
    m.plus s =
      if inCalendar ((m.localMicros + s.toMicros) / 1000000) then
        .ok { ofSeconds ((m.localMicros + s.toMicros) / 1000000)
            ((m.localMicros + s.toMicros) % 1000000).toNat with offset := m.offset }
      else .error .date := by
  have hmicro : ((m.localMicros + s.toMicros) % 1000000).toNat = (m.micro + s.micros) % 1000000 := by
    unfold localMicros Span.toMicros
    omega
  have hseconds : (m.localMicros + s.toMicros) / 1000000 =
      (m.date.toDays + s.days) * 86400 + m.hour * 3600 + m.minute * 60 +
        (m.second + s.seconds + (m.micro + s.micros) / 1000000 : Nat) := by
    unfold localMicros localSeconds Span.toMicros
    omega
  simp only [plus, hmicro]
  generalize m.second + s.seconds + (m.micro + s.micros) / 1000000 = second at *
  generalize (m.localMicros + s.toMicros) / 1000000 = total at *
  -- The carries are those of the division of all seconds by the lengths of a minute, an hour and a day.
  have hdays : m.date.toDays + s.days + ((m.hour + (m.minute + second / 60) / 60) / 24 : Nat) =
      total / 86400 := by omega
  have hclock : (total % 86400).toNat = (m.hour + (m.minute + second / 60) / 60) % 24 * 3600 +
      (m.minute + second / 60) % 60 * 60 + second % 60 := by omega
  have hhour : (total % 86400).toNat / 3600 = (m.hour + (m.minute + second / 60) / 60) % 24 := by omega
  have hminute : (total % 86400).toNat / 60 % 60 = (m.minute + second / 60) % 60 := by omega
  have hsecond : (total % 86400).toNat % 60 = second % 60 := by omega
  have hin : (1 ≤ (Date.ofDays (total / 86400)).year ∧ (Date.ofDays (total / 86400)).year ≤ 9999) ↔
      inCalendar total := by
    rw [Date.year_ofDays_iff, inCalendar_iff]
    omega
  simp only [hdays, hin, ofSeconds, hhour, hminute, hsecond]

end Moment

end CanonStore
