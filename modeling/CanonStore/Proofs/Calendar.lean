import CanonStore.Calendar
import CanonStore.Proofs.Numeral
import Mathlib.Data.Int.Init
import Mathlib.Tactic.IntervalCases

/-!
# Dates and moments

Counting days takes dates apart and puts them together again: `Date.ofDays_toDays` for dates of the
calendar, `Moment.ofSeconds_localSeconds` for moments. The count is that of the calendar, because the next
date gets the next number (`Date.toDays_next`); so every number between the first and the last is that of a
date, and going the other way round is no loss either (`Date.toDays_ofDays`, `Moment.localSeconds_ofSeconds`).
Every moment lies between the first and the last second of the calendar (`Moment.inCalendar_localSeconds`), so
one without an offset or with the offset of UTC is its own moment in UTC.

The canonical text and the one on the moment's own clock are one only for a moment that is given in UTC with a
year of four digits (`Moment.canonicalText?_eq_isoText_iff`).
-/

namespace CanonStore

namespace Date

/-! ## Months -/

/-- A month is over before any later one starts. -/
theorem daysBeforeMonth_add_le (year : Int) : ∀ later ≤ 12, ∀ month < later, 1 ≤ month →
    daysBeforeMonth year month + daysInMonth year month ≤ daysBeforeMonth year later := by
  unfold daysBeforeMonth daysInMonth
  cases isLeap year with
  | false => decide
  | true => decide

theorem monthOfDay_eq {year : Int} {month day : Nat} (hpos : 1 ≤ month) (hle : month ≤ 12)
    (hday : day < daysInMonth year month) :
    monthOfDay year (daysBeforeMonth year month + day) = month := by
  -- The search goes down from December; it stops at the last month that does not begin after the day.
  have hfind : ∀ m ∈ [12, 11, 10, 9, 8, 7, 6, 5, 4, 3, 2],
      decide (daysBeforeMonth year m ≤ daysBeforeMonth year month + day) = decide (m ≤ month) := by
    intro m hm
    have hrange : 1 ≤ m ∧ m ≤ 12 := by
      simp at hm
      omega
    rw [decide_eq_decide]
    rcases Nat.lt_trichotomy m month with h | rfl | h
    · have hover := daysBeforeMonth_add_le year month hle m h hrange.1
      omega
    · omega
    · have hover := daysBeforeMonth_add_le year m hrange.2 month h hpos
      omega
  rw [monthOfDay, ← List.head?_filter, List.filter_congr hfind]
  interval_cases month <;> rfl

/-! ## Years -/

/-- A year ends with the 31 days of its twelfth month. -/
theorem daysBeforeYear_succ (year : Int) :
    daysBeforeYear (year + 1) = daysBeforeYear year + daysBeforeMonth year 12 + 31 := by
  have hlength : (daysBeforeMonth year 12 : Int) = if isLeap year then 335 else 334 := by
    unfold daysBeforeMonth
    cases isLeap year <;> rfl
  rw [hlength]
  unfold daysBeforeYear isLeap
  split
  · next h =>
    simp only [Bool.and_eq_true, Bool.or_eq_true, decide_eq_true_eq] at h
    omega
  · next h =>
    simp only [Bool.and_eq_true, Bool.or_eq_true, decide_eq_true_eq] at h
    omega

/-- Every month is over before the next year starts. -/
theorem daysBeforeYear_add_le (year : Int) {month : Nat} (hpos : 1 ≤ month) (hle : month ≤ 12) :
    daysBeforeYear year + daysBeforeMonth year month + daysInMonth year month ≤
      daysBeforeYear (year + 1) := by
  rw [daysBeforeYear_succ]
  rcases Nat.lt_or_eq_of_le hle with h | rfl
  · have hover := daysBeforeMonth_add_le year 12 (Nat.le_refl 12) month h hpos
    omega
  · have hdays : daysInMonth year 12 = 31 := rfl
    omega

/-- Taking off whole cycles of years from a day finds the year in which it lies. -/
theorem yearOfDay_eq {year day : Int} (hday : 0 ≤ day)
    (hlt : daysBeforeYear year + day < daysBeforeYear (year + 1)) :
    yearOfDay (daysBeforeYear year + day) = year := by
  obtain ⟨a, b, c, d, rfl, hb, hb', hc, hc', hd, hd'⟩ : ∃ a b c d : Int,
      year = 400 * a + 100 * b + 4 * c + d + 1 ∧ 0 ≤ b ∧ b ≤ 3 ∧ 0 ≤ c ∧ c ≤ 24 ∧ 0 ≤ d ∧ d ≤ 3 :=
    ⟨(year - 1) / 400, (year - 1) % 400 / 100, (year - 1) % 100 / 4, (year - 1) % 4, by omega, by omega,
      by omega, by omega, by omega, by omega, by omega⟩
  have hfirst : daysBeforeYear (400 * a + 100 * b + 4 * c + d + 1) =
      146097 * a + 36524 * b + 1461 * c + 365 * d := by
    unfold daysBeforeYear
    omega
  -- Only the last of four years has a day more, and the last of a hundred only if it is that of 400.
  have hlast : day ≤ 364 ∨ day = 365 ∧ d = 3 ∧ (c ≤ 23 ∨ b = 3) := by
    rw [hfirst] at hlt
    unfold daysBeforeYear at hlt
    omega
  clear hlt
  rw [hfirst]
  have h400 : (146097 * a + 36524 * b + 1461 * c + 365 * d + day) / 146097 = a := by omega
  have hr400 : (146097 * a + 36524 * b + 1461 * c + 365 * d + day) % 146097 =
      36524 * b + 1461 * c + 365 * d + day := by omega
  have h100 : min ((36524 * b + 1461 * c + 365 * d + day) / 36524) 3 = b := by omega
  have hr100 : 36524 * b + 1461 * c + 365 * d + day - b * 36524 = 1461 * c + 365 * d + day := by omega
  have h4 : (1461 * c + 365 * d + day) / 1461 = c := by omega
  have h1 : min ((1461 * c + 365 * d + day) % 1461 / 365) 3 = d := by omega
  simp only [yearOfDay, h400, hr400, h100, hr100, h4, h1]
  omega

theorem isValid_iff {d : Date} :
    d.isValid ↔ (1 ≤ d.year ∧ d.year ≤ 9999) ∧ (1 ≤ d.month ∧ d.month ≤ 12) ∧
      1 ≤ d.day ∧ d.day ≤ daysInMonth d.year d.month := by
  simp only [isValid, Bool.and_eq_true, decide_eq_true_eq]
  tauto

/-- Counting the days up to a date and going back as many days leads to the date. -/
theorem ofDays_toDays {d : Date} (hd : d.isValid) : ofDays d.toDays = d := by
  obtain ⟨_, ⟨hpos, hle⟩, hday, hlast⟩ := isValid_iff.mp hd
  obtain ⟨year, month, day⟩ := d
  dsimp only at hpos hle hday hlast
  have hyearEnd := daysBeforeYear_add_le year hpos hle
  have hcount : toDays ⟨year, month, day⟩ + epochDays =
      daysBeforeYear year + (daysBeforeMonth year month + (day - 1) : Nat) := by
    simp only [toDays]
    omega
  have hyear : yearOfDay (daysBeforeYear year + (daysBeforeMonth year month + (day - 1) : Nat)) = year :=
    yearOfDay_eq (by omega) (by omega)
  have hrest : (daysBeforeYear year + (daysBeforeMonth year month + (day - 1) : Nat) -
      daysBeforeYear year).toNat = daysBeforeMonth year month + (day - 1) := by omega
  have hmonth : monthOfDay year (daysBeforeMonth year month + (day - 1)) = month :=
    monthOfDay_eq hpos hle (by omega)
  simp only [ofDays, hcount, hyear, hrest, hmonth, mk.injEq, true_and]
  omega

/-- The days of the calendar are those from the first day of the year 1 to the last of the year 9999. -/
theorem toDays_bounds {d : Date} (hd : d.isValid) : -719162 ≤ d.toDays ∧ d.toDays ≤ 2932896 := by
  obtain ⟨⟨hfirst, hlast⟩, ⟨hpos, hle⟩, hday, hdays⟩ := isValid_iff.mp hd
  have hend := daysBeforeYear_add_le d.year hpos hle
  have hstart : 0 ≤ daysBeforeYear d.year := by
    unfold daysBeforeYear
    omega
  have hover : daysBeforeYear (d.year + 1) ≤ 3652059 := by
    unfold daysBeforeYear
    omega
  unfold toDays epochDays
  omega

/-! ## One day after the other -/

/-- The date after a date: the next day of the month, the first one of the next month, or that of the next
year. -/
def next (d : Date) : Date :=
  if d.day < daysInMonth d.year d.month then { d with day := d.day + 1 }
  else if d.month < 12 then ⟨d.year, d.month + 1, 1⟩
  else ⟨d.year + 1, 1, 1⟩

/-- The next month starts when a month is over. -/
theorem daysBeforeMonth_succ (year : Int) : ∀ month < 12, 1 ≤ month →
    daysBeforeMonth year (month + 1) = daysBeforeMonth year month + daysInMonth year month := by
  unfold daysBeforeMonth daysInMonth
  cases isLeap year with
  | false => decide
  | true => decide

theorem daysInMonth_pos (year : Int) (month : Nat) : 1 ≤ daysInMonth year month := by
  unfold daysInMonth
  repeat' split
  all_goals decide

theorem daysInMonth_le (year : Int) (month : Nat) : daysInMonth year month ≤ 31 := by
  unfold daysInMonth
  repeat' split
  all_goals decide

/-- The calendar is counted day by day: the next date gets the next number. -/
theorem toDays_next {d : Date} (hd : d.isValid) : d.next.toDays = d.toDays + 1 := by
  obtain ⟨_, ⟨hpos, hle⟩, _, hlast⟩ := isValid_iff.mp hd
  obtain ⟨year, month, day⟩ := d
  dsimp only at hpos hle hlast
  unfold next
  dsimp only
  -- The next day is in the same month, in the next month, or the first of the next year.
  split
  · simp only [toDays]
    omega
  · next hday =>
    split
    · next hmonth =>
      have hsucc := daysBeforeMonth_succ year month hmonth hpos
      simp only [toDays, hsucc]
      omega
    · next hmonth =>
      obtain rfl : month = 12 := by omega
      have hsucc := daysBeforeYear_succ year
      have hdays : daysInMonth year 12 = 31 := rfl
      have hfirst : daysBeforeMonth (year + 1) 1 = 0 := rfl
      simp only [toDays, hsucc, hfirst]
      omega

example : toDays ⟨1970, 1, 1⟩ = 0 := by decide

/-- The calendar ends with the last day of the year 9999, and no date before has no date after it. -/
theorem isValid_next {d : Date} (hd : d.isValid) (hlt : d.toDays < 2932896) : d.next.isValid := by
  obtain ⟨⟨hfirst, hlast⟩, ⟨hpos, hle⟩, hday, hdays⟩ := isValid_iff.mp hd
  rw [isValid_iff]
  unfold next
  split
  · next h => exact ⟨⟨hfirst, hlast⟩, ⟨hpos, hle⟩, by simp, h⟩
  · next h =>
    split
    · next hmonth => exact ⟨⟨hfirst, hlast⟩, ⟨by simp, hmonth⟩, Nat.le_refl 1, daysInMonth_pos ..⟩
    · next hmonth =>
      refine ⟨⟨by dsimp only; omega, ?_⟩, ⟨Nat.le_refl 1, (by decide : 1 ≤ 12)⟩, Nat.le_refl 1, daysInMonth_pos ..⟩
      -- In the year 9999 this would be the last day.
      obtain ⟨year, month, day⟩ := d
      dsimp only at *
      obtain rfl : month = 12 := by omega
      have hmonthDays : daysInMonth year 12 = 31 := rfl
      have hlength : 334 ≤ daysBeforeMonth year 12 := Nat.le_add_right ..
      by_contra hyear
      obtain rfl : year = 9999 := by omega
      have hbefore : daysBeforeYear 9999 = 3651694 := by decide
      simp only [toDays, hbefore, epochDays] at hlt
      omega

/-- From the first date on every day is reached, so each one has a date. -/
theorem exists_toDays_eq {days : Int} (hge : -719162 ≤ days) (hle : days ≤ 2932896) :
    ∃ d : Date, d.isValid ∧ d.toDays = days := by
  induction days, hge using Int.leInduction with
  | base => exact ⟨⟨1, 1, 1⟩, rfl, rfl⟩
  | succ days _ ih =>
    obtain ⟨d, hd, rfl⟩ := ih (by omega)
    exact ⟨d.next, isValid_next hd (by omega), toDays_next hd⟩

/-- Going forward a number of days leads to the date that has this number. -/
theorem toDays_ofDays {days : Int} (hge : -719162 ≤ days) (hle : days ≤ 2932896) :
    (ofDays days).isValid ∧ (ofDays days).toDays = days := by
  obtain ⟨d, hd, rfl⟩ := exists_toDays_eq hge hle
  rw [ofDays_toDays hd]
  exact ⟨hd, rfl⟩

end Date

namespace Offset

theorem micros_zero : (0 : Offset).micros = 0 := rfl

theorem eq_zero {o : Offset} (h : o.micros = 0) : o = 0 := by
  obtain ⟨micros⟩ := o
  obtain rfl : micros = 0 := h
  rfl

/-- An offset that is nearest to no second at all is less than half a second. -/
theorem natAbs_lt_of_seconds_eq_zero {o : Offset} (h : o.seconds = 0) : o.micros.natAbs < 500000 := by
  unfold seconds at h
  dsimp only at h
  split at h
  · omega
  · omega

end Offset

namespace Moment

theorem isValid_iff {m : Moment} :
    m.isValid ↔ m.date.isValid ∧ (m.hour < 24 ∧ m.minute < 60 ∧ m.second < 60 ∧ m.micro < 1000000) ∧
      ∀ offset, m.offset = some offset → offset.isValid := by
  unfold isValid
  cases m.offset with
  | none => simp [and_assoc]
  | some offset => simp [and_assoc]

/-- The microseconds on its own clock are the seconds and the microseconds within the last one. -/
theorem localMicros_div {m : Moment} (hm : m.isValid) :
    m.localMicros / 1000000 = m.localSeconds ∧ m.localMicros % 1000000 = m.micro := by
  obtain ⟨_, ⟨_, _, _, hmicro⟩, _⟩ := isValid_iff.mp hm
  unfold localMicros
  omega

/-- The seconds on its own clock lead back to a moment. -/
theorem ofSeconds_localSeconds {m : Moment} (hm : m.isValid) :
    ofSeconds m.localSeconds m.micro = { m with offset := some 0 } := by
  obtain ⟨hdate, ⟨hhour, hminute, hsecond, _⟩, _⟩ := isValid_iff.mp hm
  have hdays : m.localSeconds / 86400 = m.date.toDays := by
    unfold localSeconds
    omega
  have hclock : (m.localSeconds % 86400).toNat = m.hour * 3600 + m.minute * 60 + m.second := by
    unfold localSeconds
    omega
  obtain ⟨date, hour, minute, second, micro, offset⟩ := m
  simp only [ofSeconds, hdays, hclock, Date.ofDays_toDays hdate, mk.injEq, true_and, and_true]
  dsimp only at hhour hminute hsecond
  omega

theorem inCalendar_localSeconds {m : Moment} (hm : m.isValid) : inCalendar m.localSeconds := by
  obtain ⟨hdate, ⟨hhour, hminute, hsecond, _⟩, _⟩ := isValid_iff.mp hm
  have hdays := Date.toDays_bounds hdate
  unfold inCalendar minSeconds maxSeconds localSeconds
  simp only [Bool.and_eq_true, decide_eq_true_eq]
  omega

theorem inCalendar_iff {seconds : Int} :
    inCalendar seconds ↔ -62135596800 ≤ seconds ∧ seconds ≤ 253402300799 := by
  rw [inCalendar, Bool.and_eq_true, decide_eq_true_eq, decide_eq_true_eq]
  exact Iff.rfl

/-- The seconds of the calendar are those of its moments. -/
theorem isValid_ofSeconds {seconds : Int} {micro : Nat} (h : inCalendar seconds) (hmicro : micro < 1000000) :
    (ofSeconds seconds micro).isValid := by
  rw [inCalendar_iff] at h
  have hfirst : -719162 ≤ seconds / 86400 := by omega
  have hlast : seconds / 86400 ≤ 2932896 := by omega
  obtain ⟨hdate, _⟩ := Date.toDays_ofDays hfirst hlast
  rw [isValid_iff]
  refine ⟨hdate, ?_, ?_⟩
  · simp only [ofSeconds]
    omega
  · rintro offset ⟨⟩
    decide

/-- The moment that comes so many seconds after the epoch shows them on its clock. -/
theorem localSeconds_ofSeconds {seconds : Int} (h : inCalendar seconds) (micro : Nat) :
    (ofSeconds seconds micro).localSeconds = seconds := by
  rw [inCalendar_iff] at h
  have hfirst : -719162 ≤ seconds / 86400 := by omega
  have hlast : seconds / 86400 ≤ 2932896 := by omega
  obtain ⟨_, hdays⟩ := Date.toDays_ofDays hfirst hlast
  simp only [localSeconds, ofSeconds, hdays]
  omega

/-- A moment in UTC shows the instant on its clock. -/
theorem toMicros_of_offset_zero {m : Moment} (hoffset : m.offset = some 0) :
    m.toMicros = m.localSeconds * 1000000 + m.micro := by
  rw [toMicros, hoffset, Option.elim_some, Offset.micros_zero, Int.sub_zero, localMicros]

/-- A moment with the offset of UTC is its own moment in UTC. -/
theorem toUtc?_of_offset_zero {m : Moment} (hm : m.isValid) (hoffset : m.offset = some 0) :
    m.toUtc? = some m := by
  obtain ⟨hseconds, hmicro⟩ := localMicros_div hm
  unfold toUtc?
  rw [hoffset]
  dsimp only
  rw [Offset.micros_zero, Int.sub_zero, hseconds, hmicro, if_pos (inCalendar_localSeconds hm), Int.toNat_natCast,
    ofSeconds_localSeconds hm, ← hoffset]

/-- The microseconds of the moment in UTC are those that are left on the clock without the offset. -/
theorem micro_of_toUtc? {m u : Moment} {offset : Offset} (hoffset : m.offset = some offset) (h : m.toUtc? = some u) :
    u.micro = ((m.localMicros - offset.micros) % 1000000).toNat := by
  unfold toUtc? at h
  rw [hoffset] at h
  dsimp only at h
  split at h
  · cases h
    rfl
  · cases h

/-! ## Texts -/

/-- A text that ends in a numeral does not end in the letter of UTC. -/
theorem getLast?_append_padded (t : Text) (width n : Nat) :
    (t ++ Numeral.padded width n).getLast? ≠ some 0x5A := by
  intro h
  have hne := Numeral.padded_ne_nil width n
  rw [List.getLast?_append, List.getLast?_eq_some_getLast hne, Option.some_or, Option.some.injEq] at h
  have hdigit := Numeral.isDigit_of_mem_padded _ (List.getLast_mem hne)
  rw [h] at hdigit
  exact absurd hdigit (by decide)

/-- The text on the moment's own clock ends in the letter of UTC exactly if no second is nearer to its offset
than none. -/
theorem getLast?_isoText {m : Moment} :
    m.isoText.getLast? = some 0x5A ↔ ∃ offset, m.offset = some offset ∧ offset.seconds = 0 := by
  obtain ⟨date, hour, minute, second, micro, offset⟩ := m
  unfold isoText
  cases offset with
  | none =>
    -- Without an offset the text ends with a digit, with or without a fraction.
    refine iff_of_false ?_ (by simp)
    unfold microText
    split
    · simp only [clockText, List.append_nil, ← List.append_assoc]
      exact getLast?_append_padded _ _ _
    · simp only [List.append_nil, ← List.append_assoc]
      exact getLast?_append_padded _ _ _
  | some offset =>
    dsimp only
    unfold offsetText
    split
    · next h =>
      rw [List.getLast?_append]
      exact iff_of_true rfl ⟨offset, rfl, h⟩
    · next h =>
      simp only [← List.append_assoc]
      exact iff_of_false (getLast?_append_padded _ _ _) (by simpa using h)

/-- A numeral is no point. -/
theorem point_notMem_padded (width n : Nat) : (0x2E : CodePoint) ∉ Numeral.padded width n :=
  fun h => absurd (Numeral.isDigit_of_mem_padded _ h) (by decide)

/-- There is no point before the fraction, however wide the year is. -/
theorem point_notMem_dateClock (width : Nat) (m : Moment) :
    (0x2E : CodePoint) ∉ m.date.text width ++ "T" ++ m.clockText := by
  have hhyphen : (0x2E : CodePoint) ∉ ("-" : Text) := by decide
  have hcolon : (0x2E : CodePoint) ∉ (":" : Text) := by decide
  have hletter : (0x2E : CodePoint) ∉ ("T" : Text) := by decide
  simp only [Date.text, clockText, List.mem_append, point_notMem_padded, hhyphen, hcolon, hletter, or_self,
    not_false_eq_true]

/-- Six digits follow a point. -/
theorem microText_eq_or (m : Moment) : m.microText = [] ∨ ∃ f, m.microText = ("." : Text) ++ f := by
  unfold microText
  split
  · exact .inl rfl
  · exact .inr ⟨_, rfl⟩

/-- To look for the first point, a text without one can be skipped. -/
theorem dropWhile_append_of_point_notMem {p : Text} (hp : (0x2E : CodePoint) ∉ p) (t : Text) :
    (p ++ t).dropWhile (fun c => c ≠ 0x2E) = t.dropWhile fun c => c ≠ 0x2E :=
  List.dropWhile_append_of_pos fun _ hc => decide_eq_true fun h => hp (h ▸ hc)

/-- The fraction starts with the first point. -/
theorem dropWhile_microText (m : Moment) : m.microText.dropWhile (fun c => c ≠ 0x2E) = m.microText := by
  rcases microText_eq_or m with h | ⟨f, h⟩
  · rw [h]
    rfl
  · rw [h]
    rfl

/-- The fraction tells the microseconds. -/
theorem micro_eq_of_microText {m u : Moment} (h : u.microText = m.microText) : u.micro = m.micro := by
  unfold microText at h
  split at h
  · next hu =>
    split at h
    · next hm => rw [hu, hm]
    · cases h
  · split at h
    · cases h
    · have hdigits := congrArg Numeral.toNat (List.append_cancel_left h)
      rwa [Numeral.toNat_padded, Numeral.toNat_padded] at hdigits

/-- With an offset that is nearest to no second at all the text ends like one in UTC. -/
theorem isoText_of_seconds_eq_zero {m : Moment} {offset : Offset} (hoffset : m.offset = some offset)
    (hseconds : offset.seconds = 0) :
    m.isoText = m.date.text 4 ++ "T" ++ m.clockText ++ m.microText ++ "Z" := by
  simp only [isoText, hoffset, hseconds]
  rfl

/-- Only a moment in UTC has one text: a smaller offset than half a second shows in the microseconds. -/
theorem offset_of_canonicalText?_eq_isoText {m : Moment} (hm : m.isValid) (h : m.canonicalText? = some m.isoText) :
    m.offset = some 0 := by
  obtain ⟨u, hu, htext⟩ := Option.map_eq_some_iff.mp h
  obtain ⟨offset, hoffset, hseconds⟩ : ∃ offset, m.offset = some offset ∧ offset.seconds = 0 := by
    rw [← getLast?_isoText, ← htext, List.getLast?_append]
    rfl
  have hfraction : u.microText = m.microText := by
    rw [isoText_of_seconds_eq_zero hoffset hseconds] at htext
    have hdrop := congrArg (List.dropWhile fun c => c ≠ 0x2E) (List.append_cancel_right htext)
    rwa [dropWhile_append_of_point_notMem (point_notMem_dateClock 1 u), dropWhile_microText,
      dropWhile_append_of_point_notMem (point_notMem_dateClock 4 m), dropWhile_microText] at hdrop
  have hmicro := micro_eq_of_microText hfraction
  rw [micro_of_toUtc? hoffset hu] at hmicro
  have hlocal := (localMicros_div hm).2
  have hbelow := Offset.natAbs_lt_of_seconds_eq_zero hseconds
  have hzero : offset.micros = 0 := by omega
  rw [hoffset, Offset.eq_zero hzero]

/-- A moment has one text exactly if it is in UTC and its year has four digits by itself. -/
theorem canonicalText?_eq_isoText_iff {m : Moment} (hm : m.isValid) :
    m.canonicalText? = some m.isoText ↔ m.offset = some 0 ∧ 1000 ≤ m.date.year := by
  -- The canonical text pads no year, while the other one pads it to four digits.
  have hyear : m.date.text 1 = m.date.text 4 ↔ 1000 ≤ m.date.year := by
    have hdigits := Numeral.length_le_iff (n := m.date.year.toNat) (k := 3) (by decide)
    simp only [Date.text, List.append_left_inj, Numeral.padded_one_eq_iff]
    omega
  have hutc : m.offset = some 0 → (m.canonicalText? = some m.isoText ↔ 1000 ≤ m.date.year) := by
    intro hoffset
    rw [canonicalText?, toUtc?_of_offset_zero hm hoffset, Option.map_some, Option.some.injEq,
      isoText_of_seconds_eq_zero hoffset rfl, ← hyear]
    simp only [List.append_left_inj]
  constructor
  · intro h
    have hoffset := offset_of_canonicalText?_eq_isoText hm h
    exact ⟨hoffset, (hutc hoffset).mp h⟩
  · rintro ⟨hoffset, h⟩
    exact (hutc hoffset).mpr h

end Moment

end CanonStore
