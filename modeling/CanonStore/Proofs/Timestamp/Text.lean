import CanonStore.Proofs.Text.Pieces
import CanonStore.Proofs.Timestamp.Moment
import Mathlib.Data.List.Forall2
import Mathlib.Order.Bounds.Basic

/-!
# The text of a timestamp, written and read

Texts of timestamps have one form (`HasForm`): a date and a time of day whose numbers are filled up with zeros,
and a fraction of none, three, six or nine digits. `readText?` reads a text of this form by counting the days of
the calendar up to its date. It knows nothing of how a timestamp is taken apart into a date and a clock, so that
reading back what was written (`readText?_of_text`) says that no two timestamps share a text.

The fraction has as few digits as tell the nanoseconds (`isLeast_places`). Main statement: `readText?_text`.
-/

namespace CanonStore

namespace Timestamp

variable {t : Timestamp} {d : Date} {m : Moment} {nanos : Nat} {s p : Text}

/-! ## Reading -/

/-- The number of a fixed number of digits, and what follows it. -/
def readNumber? (width : Nat) (s : Text) : Option (Nat × Text) :=
  if (s.take width).length = width ∧ (s.take width).all CodePoint.isDigit then
    some (Numeral.toNat (s.take width), s.drop width)
  else none

/-- The date of year, month and day with hyphens. -/
def readDate? (s : Text) : Option (Date × Text) := do
  let (year, s) ← readNumber? 4 s
  let (month, s) ← readNumber? 2 (← Text.dropPrefix? "-" s)
  let (day, s) ← readNumber? 2 (← Text.dropPrefix? "-" s)
  return (⟨year, month, day⟩, s)

/-- The moment in UTC of a date with the hours, minutes and seconds that colons keep apart. -/
def readClock? (date : Date) (s : Text) : Option (Moment × Text) := do
  let (hour, s) ← readNumber? 2 s
  let (minute, s) ← readNumber? 2 (← Text.dropPrefix? ":" s)
  let (second, s) ← readNumber? 2 (← Text.dropPrefix? ":" s)
  return (⟨date, hour, minute, second, 0, some 0⟩, s)

/-- The nanoseconds of a point and one to nine digits; without a point there are none. -/
def readFraction? (s : Text) : Option (Nat × Text) :=
  match Text.dropPrefix? "." s with
  | none => some (0, s)
  | some s =>
    let digits := s.takeWhile CodePoint.isDigit
    if 1 ≤ digits.length ∧ digits.length ≤ 9 then
      some (Numeral.toNat digits * 10 ^ (9 - digits.length), s.dropWhile CodePoint.isDigit)
    else none

/-- The seconds since 1970-01-01 in UTC and the nanoseconds that a text tells, if its date exists and its clock
shows a time of day. The seconds are those of the days up to the date (`Date.toDays`) and of the clock. -/
def readText? (s : Text) : Option (Int × Nat) := do
  let (date, s) ← readDate? s
  let (m, s) ← readClock? date (← Text.dropPrefix? "T" s)
  let (nanos, s) ← readFraction? s
  if m.isValid ∧ s = "Z" then some (m.localSeconds, nanos) else none

/-! ## Reading what was written -/

/-- A padded number is read back. -/
theorem readNumber?_padded {width n : Nat} (hwidth : 0 < width) (h : n < 10 ^ width) (rest : Text) :
    readNumber? width (Numeral.padded width n ++ rest) = some (n, rest) := by
  have hlength := Numeral.length_padded_of_lt hwidth h
  have htake : (Numeral.padded width n ++ rest).take width = Numeral.padded width n := List.take_left' hlength
  have hdrop : (Numeral.padded width n ++ rest).drop width = rest := List.drop_left' hlength
  rw [readNumber?, htake, hdrop, Numeral.toNat_padded,
    if_pos ⟨hlength, List.all_eq_true.mpr Numeral.isDigit_of_mem_padded⟩]

/-- A written date is read back. -/
theorem readDate?_text (hd : d.isValid) (rest : Text) : readDate? (d.text 4 ++ rest) = some (d, rest) := by
  obtain ⟨⟨hyear, hyear'⟩, ⟨_, hmonth⟩, _, hday⟩ := Date.isValid_iff.mp hd
  have hlast := Date.daysInMonth_le d.year d.month
  have hcast : (d.year.toNat : Int) = d.year := Int.toNat_of_nonneg (by omega)
  simp (disch := omega) only [readDate?, Date.text, List.append_assoc, readNumber?_padded,
    Text.dropPrefix?_append, Option.bind_eq_bind, Option.bind_some, hcast]
  rfl

/-- A written time of day is read back. -/
theorem readClock?_clockText (hm : m.isValid) (rest : Text) :
    readClock? m.date (m.clockText ++ rest) = some ({ m with micro := 0, offset := some 0 }, rest) := by
  obtain ⟨_, ⟨hhour, hminute, hsecond, _⟩, _⟩ := Moment.isValid_iff.mp hm
  simp (disch := omega) only [readClock?, Moment.clockText, List.append_assoc, readNumber?_padded,
    Text.dropPrefix?_append, Option.bind_eq_bind, Option.bind_some]
  rfl

/-! ## The fraction -/

/-- The number of digits after the point. -/
def places (nanos : Nat) : Nat :=
  if nanos = 0 then 0
  else if nanos % 1000000 = 0 then 3
  else if nanos % 1000 = 0 then 6
  else 9

theorem places_mem (nanos : Nat) : places nanos ∈ [0, 3, 6, 9] := by
  unfold places
  repeat' split
  all_goals decide

theorem places_le (nanos : Nat) : places nanos ≤ 9 := by
  unfold places
  repeat' split
  all_goals decide

/-- The digits after the point leave nothing out. -/
theorem pow_dvd_nanos (nanos : Nat) : 10 ^ (9 - places nanos) ∣ nanos := by
  unfold places
  repeat' split
  · next hzero =>
    rw [hzero]
    exact Nat.dvd_zero _
  · next hmod => exact Nat.dvd_of_mod_eq_zero hmod
  · next hmod => exact Nat.dvd_of_mod_eq_zero hmod
  · exact Nat.one_dvd _

/-- With so many digits nothing is left out, and with fewer something would be. -/
theorem isLeast_places (h : nanos < nanosPerSecond) :
    IsLeast {k | k ∈ [0, 3, 6, 9] ∧ 10 ^ (9 - k) ∣ nanos} (places nanos) := by
  refine ⟨⟨places_mem nanos, pow_dvd_nanos nanos⟩, ?_⟩
  rintro k ⟨hk, hdvd⟩
  -- Fewer digits than `places` would have to leave out digits that are not zero.
  simp only [List.mem_cons, List.not_mem_nil, or_false] at hk
  rcases hk with rfl | rfl | rfl | rfl
  · have hzero : nanos = 0 := Nat.eq_zero_of_dvd_of_lt hdvd h
    rw [places, if_pos hzero]
  · have hmod : nanos % 1000000 = 0 := Nat.mod_eq_zero_of_dvd hdvd
    rw [places, if_pos hmod]
    split <;> decide
  · have hmod : nanos % 1000 = 0 := Nat.mod_eq_zero_of_dvd hdvd
    rw [places, if_pos hmod]
    repeat' split
    all_goals decide
  · exact places_le nanos

/-- The fraction of none, three, six or nine digits, by their number. -/
theorem fractionText_eq (nanos : Nat) :
    fractionText nanos = if places nanos = 0 then [] else
      ("." : Text) ++ Numeral.padded (places nanos) (nanos / 10 ^ (9 - places nanos)) := by
  unfold fractionText places
  split
  · rfl
  · split
    · rfl
    · split
      · rfl
      · rw [if_neg (by decide), Nat.sub_self, Nat.pow_zero, Nat.div_one]

/-- The number after the point has no more digits than stand there. -/
theorem fraction_lt (h : nanos < nanosPerSecond) : nanos / 10 ^ (9 - places nanos) < 10 ^ places nanos := by
  rw [Nat.div_lt_iff_lt_mul (Nat.pow_pos (by decide)), ← Nat.pow_add, Nat.add_sub_cancel' (places_le nanos)]
  exact h

/-- A point and digits are read up to the letter of UTC. -/
theorem readFraction?_padded {width n : Nat} (hpos : 0 < width) (hle : width ≤ 9) (h : n < 10 ^ width) :
    readFraction? (("." : Text) ++ Numeral.padded width n ++ "Z") = some (n * 10 ^ (9 - width), ("Z" : Text)) := by
  have hlength := Numeral.length_padded_of_lt hpos h
  have hdigits : ∀ c ∈ Numeral.padded width n, c.isDigit := Numeral.isDigit_of_mem_padded
  have htake : (("Z" : Text).takeWhile CodePoint.isDigit) = [] := rfl
  have hdrop : (("Z" : Text).dropWhile CodePoint.isDigit) = "Z" := rfl
  rw [List.append_assoc, readFraction?, Text.dropPrefix?_append]
  dsimp only
  rw [List.takeWhile_append_of_pos hdigits, List.dropWhile_append_of_pos hdigits, htake, hdrop,
    List.append_nil, hlength, Numeral.toNat_padded]
  exact if_pos ⟨hpos, hle⟩

/-- A written fraction is read back. -/
theorem readFraction?_fractionText (h : nanos < nanosPerSecond) :
    readFraction? (fractionText nanos ++ "Z") = some (nanos, ("Z" : Text)) := by
  have hdvd := pow_dvd_nanos nanos
  rw [fractionText_eq]
  split
  · next hzero =>
    rw [hzero] at hdvd
    rw [Nat.eq_zero_of_dvd_of_lt hdvd h]
    rfl
  · next hplaces =>
    rw [readFraction?_padded (Nat.pos_of_ne_zero hplaces) (places_le nanos) (fraction_lt h),
      Nat.div_mul_cancel hdvd]

/-! ## The form -/

/-- A text that has a digit where the pattern has a zero, and the code point of the pattern everywhere else. -/
def Fits (pattern s : Text) : Prop :=
  List.Forall₂ (fun p c => if p = 0x30 then c.isDigit = true else c = p) pattern s

/-- The form of a text with so many digits after the point; without any there is no point. -/
def HasForm (places : Nat) (s : Text) : Prop :=
  Fits (("0000-00-00T00:00:00" : Text) ++
    (if places = 0 then [] else ("." : Text) ++ List.replicate places 0x30) ++ ("Z" : Text)) s

/-- Two patterns fit one after the other. -/
theorem Fits.append {p' s' : Text} (h : Fits p s) (h' : Fits p' s') : Fits (p ++ p') (s ++ s') :=
  List.rel_append h h'

/-- Digits fit a pattern of as many zeros. -/
theorem fits_of_digits (h : ∀ c ∈ s, c.isDigit) : Fits (List.replicate s.length 0x30) s := by
  induction s with
  | nil => exact .nil
  | cons c s ih =>
    obtain ⟨hc, hs⟩ := List.forall_mem_cons.mp h
    exact .cons hc (ih hs)

theorem fits_padded (width : Nat) {n : Nat} (hwidth : 0 < width) (h : n < 10 ^ width) :
    Fits (List.replicate width 0x30) (Numeral.padded width n) := by
  have hdigits : ∀ c ∈ Numeral.padded width n, c.isDigit := Numeral.isDigit_of_mem_padded
  have hfits := fits_of_digits hdigits
  rwa [Numeral.length_padded_of_lt hwidth h] at hfits

theorem fits_two {n : Nat} (h : n < 100) : Fits "00" (Numeral.padded 2 n) :=
  fits_padded 2 (by decide) h

/-- A text without zeros is a pattern of itself only. -/
theorem fits_self (h : (0x30 : CodePoint) ∉ s) : Fits s s := by
  rw [Fits, List.forall₂_same]
  intro c hc
  rw [if_neg]
  rintro rfl
  exact h hc

/-- The form of a date. -/
theorem fits_dateText (hd : d.isValid) : Fits "0000-00-00" (d.text 4) := by
  obtain ⟨⟨hyear, hyear'⟩, ⟨_, hmonth⟩, _, hday⟩ := Date.isValid_iff.mp hd
  have hlast := Date.daysInMonth_le d.year d.month
  have hmark : Fits "-" "-" := fits_self (by decide)
  have hyearText : Fits "0000" (Numeral.padded 4 d.year.toNat) := fits_padded 4 (by decide) (by omega)
  have hmonthText : Fits "00" (Numeral.padded 2 d.month) := fits_two (by omega)
  have hdayText : Fits "00" (Numeral.padded 2 d.day) := fits_two (by omega)
  exact (((hyearText.append hmark).append hmonthText).append hmark).append hdayText

/-- The form of a time of day. -/
theorem fits_clockText (hm : m.isValid) : Fits "00:00:00" m.clockText := by
  obtain ⟨_, ⟨hhour, hminute, hsecond, _⟩, _⟩ := Moment.isValid_iff.mp hm
  have hmark : Fits ":" ":" := fits_self (by decide)
  have hhourText : Fits "00" (Numeral.padded 2 m.hour) := fits_two (by omega)
  have hminuteText : Fits "00" (Numeral.padded 2 m.minute) := fits_two (by omega)
  have hsecondText : Fits "00" (Numeral.padded 2 m.second) := fits_two (by omega)
  exact (((hhourText.append hmark).append hminuteText).append hmark).append hsecondText

/-- The form of a date with a time of day. -/
theorem fits_dateClock (hm : m.isValid) :
    Fits "0000-00-00T00:00:00" (m.date.text 4 ++ "T" ++ m.clockText) := by
  have hdate := fits_dateText (Moment.isValid_iff.mp hm).1
  have hmark : Fits "T" "T" := fits_self (by decide)
  exact (hdate.append hmark).append (fits_clockText hm)

/-- The form of a fraction. -/
theorem fits_fractionText (h : nanos < nanosPerSecond) :
    Fits (if places nanos = 0 then [] else ("." : Text) ++ List.replicate (places nanos) 0x30)
      (fractionText nanos) := by
  rw [fractionText_eq]
  split
  · exact .nil
  · next hplaces =>
    exact (fits_self (by decide)).append (fits_padded _ (Nat.pos_of_ne_zero hplaces) (fraction_lt h))

/-! ## The text as a whole -/

/-- A timestamp of the calendar has a text. -/
theorem text_of_inCalendar (h : Moment.inCalendar t.seconds) : ∃ s, t.text = .ok s := by
  rw [text, calendar_of_inCalendar h (by decide)]
  exact ⟨_, rfl⟩

/-- A text is that of a whole second of the calendar, with the fraction. -/
theorem exists_moment_of_text (h : t.text = .ok s) :
    ∃ m : Moment, m.isValid ∧ m.localSeconds = t.seconds ∧
      s = m.date.text 4 ++ "T" ++ m.clockText ++ fractionText t.nanos ++ "Z" := by
  obtain ⟨m, hm, rfl⟩ := map_eq_ok_iff.mp h
  have hin := inCalendar_of_calendar hm (by decide)
  rw [calendar_of_inCalendar hin (by decide)] at hm
  cases hm
  exact ⟨_, Moment.isValid_ofSeconds hin (by decide), Moment.localSeconds_ofSeconds hin 0, rfl⟩

/-- Every text of a timestamp has the form. -/
theorem hasForm_of_text (h : t.text = .ok s) : HasForm (places t.nanos) s := by
  obtain ⟨m, hm, _, rfl⟩ := exists_moment_of_text h
  have hfraction := fits_fractionText t.nanos_lt
  have hend : Fits "Z" "Z" := fits_self (by decide)
  exact ((fits_dateClock hm).append hfraction).append hend

/-- A moment is read with the nanoseconds that its fraction tells. -/
theorem readText?_utcText (hm : m.isValid) {fraction : Text}
    (hfraction : readFraction? (fraction ++ "Z") = some (nanos, ("Z" : Text))) :
    readText? (m.date.text 4 ++ "T" ++ m.clockText ++ fraction ++ "Z") = some (m.localSeconds, nanos) := by
  obtain ⟨hdate, ⟨hhour, hminute, hsecond, _⟩, _⟩ := Moment.isValid_iff.mp hm
  -- What is read is the moment without its fraction, which has the same seconds.
  have hread : ({ m with micro := 0, offset := some 0 } : Moment).isValid := by
    refine Moment.isValid_iff.mpr ⟨hdate, ⟨hhour, hminute, hsecond, (by decide : 0 < 1000000)⟩, ?_⟩
    rintro offset ⟨⟩
    decide
  simp only [readText?, List.append_assoc, readDate?_text hdate, Text.dropPrefix?_append, readClock?_clockText hm,
    hfraction, Option.bind_eq_bind, Option.bind_some, and_true]
  rw [if_pos hread]
  rfl

/-- Reading back what was written gives the seconds and nanoseconds of the timestamp. -/
theorem readText?_of_text (h : t.text = .ok s) : readText? s = some (t.seconds, t.nanos) := by
  obtain ⟨m, hm, hseconds, rfl⟩ := exists_moment_of_text h
  rw [← hseconds]
  exact readText?_utcText hm (readFraction?_fractionText t.nanos_lt)

/-- Every timestamp of the calendar has a text. The text has the form of a date, a time of day and perhaps a
fraction, which has the least number of digits that leaves nothing out. Reading it gives the timestamp back, so it
is the text of no other one. -/
theorem readText?_text (t : Timestamp) (hge : -62135596800 ≤ t.seconds) (hle : t.seconds ≤ 253402300799) :
    ∃ s places, t.text = .ok s ∧ HasForm places s ∧
      IsLeast {k | k ∈ [0, 3, 6, 9] ∧ 10 ^ (9 - k) ∣ t.nanos} places ∧
      readText? s = some (t.seconds, t.nanos) ∧ ∀ u : Timestamp, u.text = .ok s → u = t := by
  obtain ⟨s, htext⟩ := text_of_inCalendar (Moment.inCalendar_iff.mpr ⟨hge, hle⟩)
  have hread := readText?_of_text htext
  refine ⟨s, places t.nanos, htext, hasForm_of_text htext, isLeast_places t.nanos_lt, hread, ?_⟩
  intro u hu
  have hparts := (readText?_of_text hu).symm.trans hread
  rw [Option.some.injEq, Prod.mk.injEq] at hparts
  obtain ⟨seconds, nanos, _, _, _⟩ := u
  obtain ⟨rfl, rfl⟩ := hparts
  rfl

/-- Half a second before the epoch. -/
theorem readText?_text_beforeEpoch :
    ∃ t : Timestamp, t.seconds = -1 ∧ t.nanos = 500000000 ∧
      -62135596800 ≤ t.seconds ∧ t.seconds ≤ 253402300799 ∧
      ∃ s places, t.text = .ok s ∧ HasForm places s ∧
        IsLeast {k | k ∈ [0, 3, 6, 9] ∧ 10 ^ (9 - k) ∣ t.nanos} places ∧
        readText? s = some (t.seconds, t.nanos) ∧ ∀ u : Timestamp, u.text = .ok s → u = t :=
  ⟨⟨-1, 500000000, by decide, by decide, by decide⟩, rfl, rfl, by decide, by decide,
    readText?_text _ (by decide) (by decide)⟩

example : text { seconds := -1, nanos := 500000000 } = .ok ("1969-12-31T23:59:59.500Z" : Text) := by cbv

end Timestamp

end CanonStore
