import CanonStore.Proofs.Timestamp.Text

/-!
# The canonical text of a moment beside that of its timestamp

Both texts tell the date and the time of day in UTC, and end in its letter. They differ in two ways. The canonical
text does not fill up its year, so a year before 1000 has fewer than four digits there (`fillYear` adds what is
missing); and it always has six digits after the point, if any. The first difference shows in the first 19 code
points, the second one does not change what the fraction tells. Main statement: `canonicalText?_agrees`.
-/

namespace CanonStore

namespace Timestamp

variable {t : Timestamp} {d : Date} {m u : Moment} {nanos : Nat} {s p fraction : Text}

/-! ## Filling up the year -/

/-- A text whose first number is filled up to four digits. -/
def fillYear (s : Text) : Text := List.replicate (4 - (s.takeWhile CodePoint.isDigit).length) 0x30 ++ s

/-- The text of a date with its year filled up has the zeros that the other one lacks. -/
theorem dateText_eq (d : Date) :
    d.text 4 = List.replicate (4 - Numeral.length d.year.toNat) 0x30 ++ d.text 1 := by
  unfold Date.text
  rw [Numeral.padded_of_le (Numeral.length_pos _), Numeral.padded]
  simp only [List.append_assoc]

/-- The digits at the start of the text of a date are those of its year. -/
theorem takeWhile_dateText (d : Date) (rest : Text) :
    (d.text 1 ++ rest).takeWhile CodePoint.isDigit = Numeral.ofNat d.year.toNat := by
  have hstop : ∀ after : Text, (("-" : Text) ++ after).takeWhile CodePoint.isDigit = [] := fun _ => rfl
  unfold Date.text
  rw [Numeral.padded_of_le (Numeral.length_pos _)]
  simp only [List.append_assoc]
  rw [List.takeWhile_append_of_pos Numeral.isDigit_of_mem_ofNat, hstop, List.append_nil]

theorem head?_dateText (d : Date) (rest : Text) :
    (d.text 1 ++ rest).head? = (Numeral.ofNat d.year.toNat).head? := by
  unfold Date.text
  rw [Numeral.padded_of_le (Numeral.length_pos _)]
  simp only [List.append_assoc]
  exact List.head?_append_of_ne_nil _ (Numeral.ofNat_ne_nil _)

theorem fillYear_dateText (d : Date) (rest : Text) : fillYear (d.text 1 ++ rest) = d.text 4 ++ rest := by
  rw [fillYear, takeWhile_dateText, Numeral.length_ofNat, dateText_eq, List.append_assoc]

theorem fillYear_dateClock (m : Moment) (rest : Text) :
    fillYear (m.date.text 1 ++ "T" ++ m.clockText ++ rest) = m.date.text 4 ++ "T" ++ m.clockText ++ rest := by
  simp only [List.append_assoc, fillYear_dateText]

/-! ## Fractions -/

/-- The nanoseconds that the digits after the point tell; a text without a point tells none. -/
def fractionOf? (s : Text) : Option Nat := (readFraction? (s.dropWhile fun c => c ≠ 0x2E)).map Prod.fst

theorem fractionOf?_append (hp : (0x2E : CodePoint) ∉ p) (hpoint : fraction = [] ∨ ∃ f, fraction = ("." : Text) ++ f)
    (hread : readFraction? (fraction ++ "Z") = some (nanos, ("Z" : Text))) :
    fractionOf? (p ++ fraction ++ "Z") = some nanos := by
  rw [fractionOf?, List.append_assoc, Moment.dropWhile_append_of_point_notMem hp]
  rcases hpoint with rfl | ⟨f, rfl⟩
  · cases hread
    rfl
  · have hstart : ((("." : Text) ++ f ++ "Z").dropWhile fun c => c ≠ 0x2E) = ("." : Text) ++ f ++ "Z" := rfl
    rw [hstart, hread]
    rfl

theorem readFraction?_microText (hm : m.isValid) :
    readFraction? (m.microText ++ "Z") = some (m.micro * 1000, ("Z" : Text)) := by
  obtain ⟨_, ⟨_, _, _, hmicro⟩, _⟩ := Moment.isValid_iff.mp hm
  unfold Moment.microText
  split
  · next hzero =>
    rw [hzero]
    rfl
  · exact readFraction?_padded (by decide) (by decide) hmicro

theorem fractionText_eq_or (nanos : Nat) : fractionText nanos = [] ∨ ∃ f, fractionText nanos = ("." : Text) ++ f := by
  rw [fractionText_eq]
  split
  · exact .inl rfl
  · exact .inr ⟨_, rfl⟩

/-! ## The two texts -/

/-- The canonical text is that of the moment in UTC. -/
theorem canonicalText?_of_toUtc? (h : m.toUtc? = some u) :
    m.canonicalText? = some (u.date.text 1 ++ "T" ++ u.clockText ++ u.microText ++ "Z") := by
  rw [Moment.canonicalText?, h]
  rfl

/-- The text of the timestamp of a moment in UTC. -/
theorem text_ofUtc (hu : u.isValid) :
    (ofUtc u hu).text = .ok (u.date.text 4 ++ "T" ++ u.clockText ++ fractionText (u.micro * 1000) ++ "Z") := by
  have hin : Moment.inCalendar (ofUtc u hu).seconds := Moment.inCalendar_localSeconds hu
  have hzero : ({ u with micro := 0 } : Moment).isValid := by
    obtain ⟨hdate, ⟨hhour, hminute, hsecond, _⟩, hoffset⟩ := Moment.isValid_iff.mp hu
    exact Moment.isValid_iff.mpr ⟨hdate, ⟨hhour, hminute, hsecond, (by decide : 0 < 1000000)⟩, hoffset⟩
  have hmoment : Moment.ofSeconds u.localSeconds 0 = { u with micro := 0, offset := some 0 } :=
    Moment.ofSeconds_localSeconds hzero
  rw [text, calendar_of_inCalendar hin (by decide)]
  show Except.map _ (Except.ok (Moment.ofSeconds u.localSeconds 0)) = _
  rw [hmoment]
  rfl

/-! ## What they share -/

/-- The date and the time of day are the first 19 code points. -/
theorem take_dateClock (hm : m.isValid) (rest : Text) :
    (m.date.text 4 ++ "T" ++ m.clockText ++ rest).take 19 = m.date.text 4 ++ "T" ++ m.clockText :=
  List.take_left' (fits_dateClock hm).length_eq.symm

/-- With the year as it is, the first 19 code points are the same exactly if the year has four digits by itself. -/
theorem take_dateClock_iff (hm : m.isValid) (rest : Text) :
    (m.date.text 1 ++ "T" ++ m.clockText ++ rest).take 19 = m.date.text 4 ++ "T" ++ m.clockText ↔
      1000 ≤ m.date.year := by
  obtain ⟨hdate, _, _⟩ := Moment.isValid_iff.mp hm
  obtain ⟨⟨hyear, _⟩, _⟩ := Date.isValid_iff.mp hdate
  have hdigits := Numeral.length_le_iff (n := m.date.year.toNat) (k := 3) (by decide)
  constructor
  · intro h
    by_contra hlt
    -- The one starts with a zero, the other one with the first digit of a number that is not zero.
    obtain ⟨k, hk⟩ : ∃ k, 4 - Numeral.length m.date.year.toNat = k + 1 :=
      ⟨3 - Numeral.length m.date.year.toNat, by omega⟩
    rw [dateText_eq, hk, List.replicate_succ] at h
    have hhead := congrArg List.head? h
    rw [List.head?_take, if_neg (by decide), List.append_assoc, List.append_assoc, head?_dateText] at hhead
    exact Numeral.head?_ofNat (by omega) hhead
  · intro hge
    have hzeros : 4 - Numeral.length m.date.year.toNat = 0 := by omega
    have hfull : m.date.text 4 = m.date.text 1 := by
      rw [dateText_eq, hzeros]
      rfl
    rw [← hfull]
    exact take_dateClock hm rest

/-- A moment that has a date in UTC has a canonical text and a timestamp with a text. The first 19 code points of the
latter are the date and the time of day. Those of the canonical text are the same exactly if the year has four
digits in UTC, and in any case once the year is filled up. Both texts end in the letter of UTC, and their
fractions tell the same: the microseconds of the moment. -/
theorem canonicalText?_agrees (hm : m.isValid) (hutc : m.toUtc? = some u) :
    ∃ s t r, m.canonicalText? = some s ∧ ofMoment? m = some t ∧ t.text = .ok r ∧
      Fits "0000-00-00T00:00:00" (r.take 19) ∧
      (s.take 19 = r.take 19 ↔ 1000 ≤ u.date.year) ∧ (fillYear s).take 19 = r.take 19 ∧
      s.getLast? = some 0x5A ∧ r.getLast? = some 0x5A ∧
      fractionOf? s = some (u.micro * 1000) ∧ fractionOf? r = some (u.micro * 1000) := by
  obtain ⟨hu, hoffset⟩ := Moment.isValid_of_toUtc? hm hutc
  have hnanos : u.micro * 1000 < nanosPerSecond := (ofUtc u hu).nanos_lt
  -- There is no point before the fraction, so the fraction is what follows the first one.
  have hpoint := fun width => Moment.point_notMem_dateClock width u
  refine ⟨_, _, _, canonicalText?_of_toUtc? hutc, ofMoment?_of_toUtc? hu hoffset hutc, text_ofUtc hu, ?_, ?_, ?_,
    ?_, ?_, ?_, ?_⟩
  · rw [List.append_assoc _ _ ("Z" : Text), take_dateClock hu]
    exact fits_dateClock hu
  · rw [List.append_assoc _ _ ("Z" : Text), List.append_assoc _ _ ("Z" : Text), take_dateClock hu]
    exact take_dateClock_iff hu _
  · rw [List.append_assoc _ _ ("Z" : Text), List.append_assoc _ _ ("Z" : Text), take_dateClock hu,
      fillYear_dateClock, take_dateClock hu]
  · exact List.getLast?_concat
  · exact List.getLast?_concat
  · exact fractionOf?_append (hpoint 1) (Moment.microText_eq_or u) (readFraction?_microText hu)
  · exact fractionOf?_append (hpoint 4) (fractionText_eq_or _) (readFraction?_fractionText hnanos)

/-- The last half hour of the year 999 on a clock that runs an hour behind is in the year 1000 in UTC. -/
theorem canonicalText?_agrees_year1000 :
    ∃ m u : Moment, m = ⟨⟨999, 12, 31⟩, 23, 30, 0, 5000, some (-3600)⟩ ∧
      u = ⟨⟨1000, 1, 1⟩, 0, 30, 0, 5000, some 0⟩ ∧ m.isValid ∧ m.toUtc? = some u ∧
      ∃ s t r, m.canonicalText? = some s ∧ ofMoment? m = some t ∧ t.text = .ok r ∧ s.take 19 = r.take 19 ∧
        s.getLast? = some 0x5A ∧ r.getLast? = some 0x5A ∧
        fractionOf? s = some 5000000 ∧ fractionOf? r = some 5000000 := by
  obtain ⟨s, t, r, hs, ht, hr, _, htake, _, hlast, hlast', hfraction, hfraction'⟩ :=
    canonicalText?_agrees (m := ⟨⟨999, 12, 31⟩, 23, 30, 0, 5000, some (-3600)⟩)
      (u := ⟨⟨1000, 1, 1⟩, 0, 30, 0, 5000, some 0⟩) (by decide) (by decide)
  exact ⟨_, _, rfl, rfl, by decide, by decide, s, t, r, hs, ht, hr, htake.mpr (by decide), hlast, hlast', hfraction,
    hfraction'⟩

/-- The first moment of the year 1: its canonical text starts with the year as a single digit. -/
theorem canonicalText?_take_ne :
    ∃ m s t r, m = (⟨⟨1, 1, 1⟩, 0, 0, 0, 0, none⟩ : Moment) ∧ m.isValid ∧ m.toUtc?.isSome ∧
      m.canonicalText? = some s ∧ s = "1-01-01T00:00:00Z" ∧ ofMoment? m = some t ∧ t.text = .ok r ∧
      r = "0001-01-01T00:00:00Z" ∧ s.take 19 ≠ r.take 19 := by
  refine ⟨_, "1-01-01T00:00:00Z", ⟨-62135596800, 0, by decide, by decide, by decide⟩, "0001-01-01T00:00:00Z", rfl,
    by decide, rfl, ?_, rfl, rfl, ?_, rfl, by decide⟩
  · decide +kernel
  · decide +kernel

end Timestamp

end CanonStore
