import CanonStore.Proofs.Timestamp.Count
import CanonStore.Proofs.Timestamp.Range

/-!
# Timestamps and moments

A moment that has a date in UTC becomes a timestamp of the seconds on its clock there and of its microseconds
(`ofMoment?_of_toUtc?`); the timestamp leads back to the moment in UTC. The other way round, a timestamp of the
calendar loses what it has below a microsecond and nothing else. Main statement: `ofMoment?_toMoment`.

Seconds are rounded down and what is left counts forward, before the epoch as after it, so that neither way has
to ask for a sign.
-/

namespace CanonStore

/-- A moment in UTC is a moment of the calendar, and its offset is that of UTC. -/
theorem Moment.isValid_of_toUtc? {m u : Moment} (hm : m.isValid) (h : m.toUtc? = some u) :
    u.isValid ∧ u.offset = some 0 := by
  obtain ⟨hdate, htime, _⟩ := isValid_iff.mp hm
  unfold toUtc? at h
  split at h
  · cases h
    refine ⟨isValid_iff.mpr ⟨hdate, htime, ?_⟩, rfl⟩
    rintro offset ⟨⟩
    decide
  · dsimp only at h
    split at h
    · next hin =>
      cases h
      exact ⟨isValid_ofSeconds hin (by omega), rfl⟩
    · cases h

namespace Timestamp

variable {t : Timestamp} {m u : Moment}

/-! ## From a moment -/

theorem toMoment_of_inCalendar (h : Moment.inCalendar t.seconds) :
    t.toMoment = .ok (Moment.ofSeconds t.seconds (t.nanos / 1000)) :=
  calendar_of_inCalendar h t.nanos_div_lt

/-- The timestamp of a moment in UTC. -/
def ofUtc (u : Moment) (hu : u.isValid) : Timestamp where
  seconds := u.localSeconds
  nanos := u.micro * 1000
  seconds_ge := by
    have h := Moment.inCalendar_iff.mp (Moment.inCalendar_localSeconds hu)
    unfold minTimestampSeconds
    omega
  seconds_le := by
    have h := Moment.inCalendar_iff.mp (Moment.inCalendar_localSeconds hu)
    unfold maxTimestampSeconds
    omega
  nanos_lt := by
    obtain ⟨_, ⟨_, _, _, hmicro⟩, _⟩ := Moment.isValid_iff.mp hu
    unfold nanosPerSecond
    omega

/-- The timestamp of a moment is that of the moment in UTC. -/
theorem ofMoment?_of_toUtc? (hu : u.isValid) (hoffset : u.offset = some 0) (h : m.toUtc? = some u) :
    ofMoment? m = some (ofUtc u hu) := by
  have hnanos : u.toMicros * 1000 = (ofUtc u hu).toUnixNanos := by
    rw [Moment.toMicros_of_offset_zero hoffset]
    simp only [toUnixNanos, ofUtc, nanosPerSecond]
    omega
  rw [ofMoment?, h, Option.bind_some, hnanos, ofUnixNanos?_toUnixNanos]
  rfl

/-- The timestamp of a moment in UTC leads back to it. -/
theorem toMoment_ofUtc (hu : u.isValid) (hoffset : u.offset = some 0) : (ofUtc u hu).toMoment = .ok u := by
  have hmicro : u.micro * 1000 / 1000 = u.micro := Nat.mul_div_cancel _ (by decide)
  have hin : Moment.inCalendar (ofUtc u hu).seconds := Moment.inCalendar_localSeconds hu
  rw [toMoment_of_inCalendar hin]
  show Except.ok (Moment.ofSeconds u.localSeconds (u.micro * 1000 / 1000)) = _
  rw [hmicro, Moment.ofSeconds_localSeconds hu, ← hoffset]

/-! ## To a moment -/

/-- Without what it has below a microsecond, a timestamp of the calendar is that of its moment. -/
theorem ofMoment?_ofSeconds (h : Moment.inCalendar t.seconds) :
    ∃ cut, ofMoment? (Moment.ofSeconds t.seconds (t.nanos / 1000)) = some cut ∧
      cut.seconds = t.seconds ∧ cut.nanos = t.nanos / 1000 * 1000 := by
  have hu := Moment.isValid_ofSeconds h t.nanos_div_lt
  have hutc := Moment.toUtc?_of_offset_zero hu rfl
  refine ⟨_, ofMoment?_of_toUtc? hu rfl hutc, ?_, rfl⟩
  exact Moment.localSeconds_ofSeconds h _

/-- A moment with a date in UTC has a timestamp, whose moment is the one in UTC. A timestamp of the calendar has
a moment, whose timestamp is the same up to the nanoseconds, which are rounded down to whole microseconds. -/
theorem ofMoment?_toMoment :
    (∀ m u : Moment, m.isValid → m.toUtc? = some u → ∃ t, ofMoment? m = some t ∧ t.toMoment = .ok u) ∧
      ∀ t : Timestamp, -62135596800 ≤ t.seconds → t.seconds ≤ 253402300799 →
        ∃ m, t.toMoment = .ok m ∧ ∃ cut, ofMoment? m = some cut ∧
          cut.seconds = t.seconds ∧ cut.nanos = t.nanos / 1000 * 1000 := by
  constructor
  · intro m u hm h
    obtain ⟨hu, hoffset⟩ := Moment.isValid_of_toUtc? hm h
    exact ⟨ofUtc u hu, ofMoment?_of_toUtc? hu hoffset h, toMoment_ofUtc hu hoffset⟩
  · intro t hge hle
    have hin := Moment.inCalendar_iff.mpr ⟨hge, hle⟩
    exact ⟨_, toMoment_of_inCalendar hin, ofMoment?_ofSeconds hin⟩

/-- The last microsecond before the epoch, on a clock an hour ahead, and the last nanosecond before it. -/
theorem ofMoment?_toMoment_beforeEpoch :
    ∃ m u : Moment, m = ⟨⟨1970, 1, 1⟩, 0, 59, 59, 999999, some 3600⟩ ∧
      u = ⟨⟨1969, 12, 31⟩, 23, 59, 59, 999999, some 0⟩ ∧ m.isValid ∧ m.toUtc? = some u ∧
      (∃ t, ofMoment? m = some t ∧ t.toMoment = .ok u) ∧
      ∃ t : Timestamp, t.seconds = -1 ∧ t.nanos = 999999999 ∧
        -62135596800 ≤ t.seconds ∧ t.seconds ≤ 253402300799 ∧
        ∃ m, t.toMoment = .ok m ∧ ∃ cut, ofMoment? m = some cut ∧
          cut.seconds = t.seconds ∧ cut.nanos = t.nanos / 1000 * 1000 := by
  refine ⟨_, _, rfl, rfl, by decide, by decide, ?_, ⟨-1, 999999999, by decide, by decide, by decide⟩, rfl, rfl,
    by decide, by decide, ?_⟩
  · exact ofMoment?_toMoment.1 _ _ (by decide) (by decide)
  · exact ofMoment?_toMoment.2 _ (by decide) (by decide)

end Timestamp

end CanonStore
