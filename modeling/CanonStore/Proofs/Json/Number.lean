import CanonStore.Json.Reader
import CanonStore.Proofs.Binary64.Rounding
import Mathlib.Data.List.TakeWhile

/-!
# Numbers in documents

A number is read as far as it goes, so what it is read as hangs on what follows it. In a document that
is written here that is nothing, a comma, a closing bracket or the end of a line (`Closes`). Main statements:
`takeNumber_ofNat` and `readsFloat_magnitudeText`, the numerals of integers and of floats are split
off whole and denote the number they were written for.
-/

namespace CanonStore.Json

open Binary64 (takeDigits takeSign)

/-- What may follow a value in a written document. -/
def Closes (rest : Text) : Prop := ∀ c ∈ rest.head?, c = 0x2C ∨ c = 0x5D ∨ c = 0x7D ∨ c = 0x0A

theorem closes_nil : Closes [] := by simp [Closes]

theorem closes_cons {c : CodePoint} {rest : Text} (h : c = 0x2C ∨ c = 0x5D ∨ c = 0x7D ∨ c = 0x0A) :
    Closes (c :: rest) := by
  simpa [Closes] using h

/-- What follows goes on with none of the code points of a kind. -/
def StopsAt (p : CodePoint → Bool) (rest : Text) : Prop := ∀ c ∈ rest.head?, p c = false

theorem stopsAt_cons {p : CodePoint → Bool} {c : CodePoint} {rest : Text} (h : p c = false) :
    StopsAt p (c :: rest) := by
  simpa [StopsAt] using h

/-- What follows a number goes on with no character of a kind that closes nothing. -/
theorem Closes.stopsAt {p : CodePoint → Bool} {rest : Text} (h : Closes rest)
    (hp : p 0x2C = false ∧ p 0x5D = false ∧ p 0x7D = false ∧ p 0x0A = false) : StopsAt p rest := by
  obtain ⟨hcomma, hbracket, hbrace, hfeed⟩ := hp
  intro c hc
  rcases h c hc with rfl | rfl | rfl | rfl
  · exact hcomma
  · exact hbracket
  · exact hbrace
  · exact hfeed

/-- Digits end at a point. -/
theorem stopsAt_point (rest : Text) : StopsAt CodePoint.isDigit (0x2E :: rest) :=
  stopsAt_cons (by decide)

theorem isDigit_zero : ∀ c ∈ ([0x30] : Text), c.isDigit := by
  intro c hc
  rw [List.mem_singleton.mp hc]
  rfl

/-! ## The parts of a numeral -/

/-- All digits are taken, up to the first character that is none. -/
theorem takeDigits_append {ds rest : Text} (hd : ∀ c ∈ ds, c.isDigit)
    (hr : StopsAt CodePoint.isDigit rest) : takeDigits (ds ++ rest) = (ds, rest) := by
  have htake : rest.takeWhile CodePoint.isDigit = [] := by
    cases rest with
    | nil => rfl
    | cons c rest => exact List.takeWhile_cons_of_neg (by simp [hr c rfl])
  have hdrop : rest.dropWhile CodePoint.isDigit = rest := by
    cases rest with
    | nil => rfl
    | cons c rest => exact List.dropWhile_cons_of_neg (by simp [hr c rfl])
  rw [takeDigits, List.takeWhile_append_of_pos hd, List.dropWhile_append_of_pos hd, htake, hdrop,
    List.append_nil]

/-- A zero stands alone. -/
theorem takeWhole_zero (rest : Text) : takeWhole (0x30 :: rest) = ([0x30], rest) := rfl

/-- The digits before the point are taken if they do not start with a zero. -/
theorem takeWhole_append {ds rest : Text} (hne : ds ≠ []) (hz : ds.head? ≠ some 0x30)
    (hd : ∀ c ∈ ds, c.isDigit) (hr : StopsAt CodePoint.isDigit rest) :
    takeWhole (ds ++ rest) = (ds, rest) := by
  cases ds with
  | nil => exact absurd rfl hne
  | cons c ds =>
    have hc : ¬ c = CodePoint.ofChar '0' := fun h => hz (congrArg some h)
    rw [List.cons_append, takeWhole, if_neg hc, ← List.cons_append, takeDigits_append hd hr]

/-- Without a point there is no fraction. -/
theorem takeFraction_of_stopsAt {rest : Text} (h : StopsAt (· = 0x2E) rest) :
    takeFraction rest = ([], rest) := by
  cases rest with
  | nil => rfl
  | cons c rest =>
    have hc : decide (c = CodePoint.ofChar '.') = false := h c rfl
    simp only [takeFraction, hc, Bool.false_and]
    rfl

/-- The digits after a point are taken. -/
theorem takeFraction_point {ds rest : Text} (hne : ds ≠ []) (hd : ∀ c ∈ ds, c.isDigit)
    (hr : StopsAt CodePoint.isDigit rest) : takeFraction (0x2E :: (ds ++ rest)) = (ds, rest) := by
  have hpoint : decide ((0x2E : CodePoint) = CodePoint.ofChar '.') = true := by decide
  have hsome : ds.isEmpty = false := by simpa using hne
  simp only [takeFraction, takeDigits_append hd hr, hpoint, hsome]
  rfl

/-- Without its letter there is no exponent. -/
theorem takeExponent_of_stopsAt {rest : Text} (h : StopsAt (fun c => c = 0x65 || c = 0x45) rest) :
    takeExponent rest = (none, rest) := by
  cases rest with
  | nil => rfl
  | cons c rest =>
    have hc : (decide (c = CodePoint.ofChar 'e') || decide (c = CodePoint.ofChar 'E')) = false :=
      h c rfl
    simp only [takeExponent, hc, Bool.false_and]
    rfl

theorem exponentText_eq (e : Int) : Binary64.exponentText e
    = 0x65 :: (if e < 0 then 0x2D else 0x2B) :: Numeral.padded 2 e.natAbs := by
  unfold Binary64.exponentText
  split <;> rfl

/-- A written exponent is taken. -/
theorem takeExponent_exponentText (e : Int) {rest : Text} (hr : StopsAt CodePoint.isDigit rest) :
    takeExponent (Binary64.exponentText e ++ rest) = (some e, rest) := by
  have hdigits : takeDigits (Numeral.padded 2 e.natAbs ++ rest) = (Numeral.padded 2 e.natAbs, rest) :=
    takeDigits_append Numeral.isDigit_of_mem_padded hr
  have hsome : (Numeral.padded 2 e.natAbs).isEmpty = false := by
    simpa using Numeral.padded_ne_nil 2 e.natAbs
  have hletter : decide ((0x65 : CodePoint) = CodePoint.ofChar 'e') = true := by decide
  rw [exponentText_eq]
  -- An exponent is written with a sign even if it is positive.
  by_cases he : e < 0
  · have hsign : ∀ t : Text, takeSign (0x2D :: t) = (true, t) := fun _ => rfl
    have hval : -(e.natAbs : Int) = e := by omega
    simp only [if_pos he, List.cons_append, takeExponent, hsign, hdigits, hsome, hletter,
      Numeral.toNat_padded]
    simpa using hval
  · have hsign : ∀ t : Text, takeSign (0x2B :: t) = (false, t) := fun _ => rfl
    have hval : (e.natAbs : Int) = e := by omega
    simp only [if_neg he, List.cons_append, takeExponent, hsign, hdigits, hsome, hletter,
      Numeral.toNat_padded]
    simpa using hval

/-! ## Integers -/

/-- The numeral of a natural number is split off whole. -/
theorem takeNumber_ofNat (n : Nat) {rest : Text} (h : Closes rest) :
    takeNumber (Numeral.ofNat n ++ rest) = ⟨Numeral.ofNat n, [], none, rest⟩ := by
  have hwhole : takeWhole (Numeral.ofNat n ++ rest) = (Numeral.ofNat n, rest) := by
    by_cases hn : n = 0
    · rw [hn, Numeral.ofNat_zero]
      exact takeWhole_zero rest
    · exact takeWhole_append (Numeral.ofNat_ne_nil n) (Numeral.head?_ofNat hn)
        Numeral.isDigit_of_mem_ofNat (h.stopsAt (by decide))
  simp only [takeNumber, hwhole, takeFraction_of_stopsAt (h.stopsAt (by decide)),
    takeExponent_of_stopsAt (h.stopsAt (by decide))]

/-! ## Floats -/

/-- A number with a fraction is a float. -/
theorem Numeric.value_of_fraction {n : Numeric} (h : n.fraction ≠ []) (negative : Bool) :
    n.value negative = .ok (.float (Binary64.ofDecimal negative
      (Numeral.toNat (n.whole ++ n.fraction)) (n.exponent.getD 0 - n.fraction.length))) := by
  unfold Numeric.value
  split
  · next hf _ => exact absurd hf h
  · rfl

/-- A number with an exponent is a float. -/
theorem Numeric.value_of_exponent {n : Numeric} (h : n.exponent ≠ none) (negative : Bool) :
    n.value negative = .ok (.float (Binary64.ofDecimal negative
      (Numeral.toNat (n.whole ++ n.fraction)) (n.exponent.getD 0 - n.fraction.length))) := by
  unfold Numeric.value
  split
  · next _ hx => exact absurd hx h
  · rfl

/-- The numeral is split off whole and denotes the float. -/
structure ReadsFloat (s rest : Text) (x : Bool → Binary64) : Prop where
  whole_ne_nil : (takeNumber s).whole ≠ []
  rest_eq : (takeNumber s).rest = rest
  value_eq : ∀ negative, (takeNumber s).value negative = .ok (.float (x negative))

theorem ReadsFloat.congr {s rest : Text} {x y : Bool → Binary64} (h : ReadsFloat s rest x)
    (hxy : ∀ negative, x negative = y negative) : ReadsFloat s rest y :=
  funext hxy ▸ h

/-- A text that starts with a number with a fraction reads as the float of all its digits. -/
theorem readsFloat_of_fraction {s whole fraction rest : Text} {exponent : Option Int}
    (hs : takeNumber s = ⟨whole, fraction, exponent, rest⟩) (hw : whole ≠ []) (hf : fraction ≠ []) :
    ReadsFloat s rest fun negative => Binary64.ofDecimal negative (Numeral.toNat (whole ++ fraction))
      (exponent.getD 0 - fraction.length) where
  whole_ne_nil := by rwa [hs]
  rest_eq := by rw [hs]
  value_eq negative := by rw [hs, Numeric.value_of_fraction hf]

/-- A text that starts with a number with an exponent reads as the float of all its digits. -/
theorem readsFloat_of_exponent {s whole fraction rest : Text} {exponent : Int}
    (hs : takeNumber s = ⟨whole, fraction, some exponent, rest⟩) (hw : whole ≠ []) :
    ReadsFloat s rest fun negative => Binary64.ofDecimal negative (Numeral.toNat (whole ++ fraction))
      (exponent - fraction.length) where
  whole_ne_nil := by rwa [hs]
  rest_eq := by rw [hs]
  value_eq negative := by rw [hs, Numeric.value_of_exponent (by simp)]; rfl

theorem isDigit_of_mem_zeros {k : Nat} : ∀ c ∈ List.replicate k (0x30 : CodePoint), c.isDigit := by
  intro c hc
  rw [List.eq_of_mem_replicate hc]
  rfl

/-- Digits, a point and digits up to what closes the numeral. -/
theorem takeNumber_of_point {s whole fraction rest : Text}
    (hwhole : takeWhole s = (whole, 0x2E :: (fraction ++ rest))) (hne : fraction ≠ [])
    (hd : ∀ c ∈ fraction, c.isDigit) (hr : Closes rest) :
    takeNumber s = ⟨whole, fraction, none, rest⟩ := by
  have hfraction := takeFraction_point hne hd (hr.stopsAt (p := CodePoint.isDigit) (by decide))
  simp only [takeNumber, hwhole, hfraction, takeExponent_of_stopsAt (hr.stopsAt (by decide))]

section Layout

variable {ds rest : Text} {e : Int}

/-- One digit, perhaps a point and the others, and an exponent. -/
theorem readsFloat_layout_exponent (he : e < -4 ∨ 16 ≤ e) (hd : ∀ c ∈ ds, c.isDigit) (hne : ds ≠ [])
    (hz : ds.head? ≠ some 0x30) (hr : Closes rest) :
    ReadsFloat (Binary64.layout ds e ++ rest) rest fun negative =>
      Binary64.ofDecimal negative (Numeral.toNat ds) (e + 1 - ds.length) := by
  have hout : (decide (e < -4) || decide (16 ≤ e)) = true := by simpa using he
  have hexp := takeExponent_exponentText e (hr.stopsAt (p := CodePoint.isDigit) (by decide))
  have hstop : ∀ p : CodePoint → Bool, p 0x65 = false →
      StopsAt p (Binary64.exponentText e ++ rest) := by
    intro p hp
    rw [exponentText_eq]
    exact stopsAt_cons hp
  obtain ⟨d, ds, rfl⟩ := List.exists_cons_of_ne_nil hne
  cases ds with
  | nil =>
    -- A single digit stands without a point, so the exponent alone makes it a float.
    have hlayout : Binary64.layout [d] e ++ rest = [d] ++ (Binary64.exponentText e ++ rest) := by
      simp only [Binary64.layout, hout, if_true, List.cons_append, List.nil_append]
    have hwhole := takeWhole_append hne hz hd (hstop _ (by decide))
    have hnumber : takeNumber (Binary64.layout [d] e ++ rest) = ⟨[d], [], some e, rest⟩ := by
      rw [hlayout]
      simp only [takeNumber, hwhole, takeFraction_of_stopsAt (hstop _ (by decide)), hexp]
    apply (readsFloat_of_exponent hnumber (by simp)).congr
    intro negative
    simp
  | cons d' ds =>
    have hd' : ∀ c ∈ d' :: ds, c.isDigit := fun c hc => hd c (List.mem_cons_of_mem _ hc)
    have hlayout : Binary64.layout (d :: d' :: ds) e ++ rest
        = [d] ++ 0x2E :: (d' :: ds ++ (Binary64.exponentText e ++ rest)) := by
      simp only [Binary64.layout, hout, if_true, List.cons_append, List.append_assoc, List.nil_append]
      rfl
    have hwhole : takeWhole ([d] ++ 0x2E :: (d' :: ds ++ (Binary64.exponentText e ++ rest)))
        = ([d], 0x2E :: (d' :: ds ++ (Binary64.exponentText e ++ rest))) :=
      takeWhole_append (by simp) (by simpa using hz) (by simpa using hd d) (stopsAt_cons (by decide))
    have hfraction := takeFraction_point (by simp) hd' (hstop _ (by decide))
    have hnumber : takeNumber (Binary64.layout (d :: d' :: ds) e ++ rest)
        = ⟨[d], d' :: ds, some e, rest⟩ := by
      rw [hlayout]
      simp only [takeNumber, hwhole, hfraction, hexp]
    apply (readsFloat_of_fraction hnumber (by simp) (by simp)).congr
    intro negative
    have hexponent : e - ((d' :: ds).length : Int) = e + 1 - ((d :: d' :: ds).length : Int) := by
      simp only [List.length_cons]
      omega
    rw [Option.getD_some, hexponent]
    rfl

/-- A zero, a point and zeros before the digits. -/
theorem readsFloat_layout_small (he : -4 ≤ e) (he0 : e < 0) (hd : ∀ c ∈ ds, c.isDigit) (hne : ds ≠ [])
    (hr : Closes rest) :
    ReadsFloat (Binary64.layout ds e ++ rest) rest fun negative =>
      Binary64.ofDecimal negative (Numeral.toNat ds) (e + 1 - ds.length) := by
  have hout : (decide (e < -4) || decide (16 ≤ e)) = false := by simp; omega
  let zeros : Text := List.replicate (-e - 1).toNat 0x30
  have hd' : ∀ c ∈ zeros ++ ds, c.isDigit := List.forall_mem_append.mpr ⟨isDigit_of_mem_zeros, hd⟩
  have hlayout : Binary64.layout ds e ++ rest = 0x30 :: 0x2E :: (zeros ++ ds ++ rest) := by
    simp only [Binary64.layout, hout, if_pos he0]
    rfl
  have hnumber : takeNumber (Binary64.layout ds e ++ rest) = ⟨[0x30], zeros ++ ds, none, rest⟩ := by
    rw [hlayout]
    exact takeNumber_of_point (takeWhole_zero _) (by simp [hne]) hd' hr
  apply (readsFloat_of_fraction hnumber (by simp) (by simp [hne])).congr
  intro negative
  -- Zeros in front do not change the value of the digits; they only move the point.
  have hvalue : Numeral.toNat ([0x30] ++ (zeros ++ ds)) = Numeral.toNat ds :=
    Numeral.toNat_zeros_append ((-e - 1).toNat + 1) ds
  have hexponent : 0 - ((zeros ++ ds).length : Int) = e + 1 - (ds.length : Int) := by
    simp only [zeros, List.length_append, List.length_replicate]
    omega
  rw [hvalue, Option.getD_none, hexponent]

/-- Digits that do not reach the point are filled up with zeros, and a zero stands after the point. -/
theorem layout_of_length_le (he0 : 0 ≤ e) (he : e < 16) (hlen : ds.length ≤ e.toNat + 1) :
    Binary64.layout ds e = ds ++ List.replicate (e.toNat + 1 - ds.length) 0x30 ++ [0x2E, 0x30] := by
  have hout : (decide (e < -4) || decide (16 ≤ e)) = false := by simp; omega
  let filled := ds ++ List.replicate (e.toNat + 1 - ds.length) 0x30
  have hfilled : filled.length = e.toNat + 1 := by
    simp only [filled, List.length_append, List.length_replicate]
    omega
  simp only [Binary64.layout, hout, if_neg (show ¬ e < 0 by omega)]
  show filled.take (e.toNat + 1) ++ (if filled.length ≤ e.toNat + 1 then _ else _) = _
  rw [if_pos hfilled.le, List.take_of_length_le hfilled.le]
  rfl

/-- The point stands between two of the digits if there are enough. -/
theorem layout_of_lt_length (he0 : 0 ≤ e) (he : e < 16) (hlen : e.toNat + 1 < ds.length) :
    Binary64.layout ds e = ds.take (e.toNat + 1) ++ 0x2E :: ds.drop (e.toNat + 1) := by
  have hout : (decide (e < -4) || decide (16 ≤ e)) = false := by simp; omega
  have hfilled : ds ++ List.replicate (e.toNat + 1 - ds.length) 0x30 = ds := by
    rw [Nat.sub_eq_zero_of_le hlen.le, List.replicate_zero, List.append_nil]
  simp only [Binary64.layout, hout, if_neg (show ¬ e < 0 by omega)]
  show (ds ++ List.replicate (e.toNat + 1 - ds.length) 0x30).take (e.toNat + 1) ++
    (if (ds ++ List.replicate (e.toNat + 1 - ds.length) 0x30).length ≤ e.toNat + 1 then _ else _ ::
      (ds ++ List.replicate (e.toNat + 1 - ds.length) 0x30).drop (e.toNat + 1)) = _
  rw [hfilled, if_neg hlen.not_ge]
  rfl

/-- The zeros that fill up to the point and the one after it multiply the digits by a power of ten. -/
theorem readsFloat_layout_filled (he0 : 0 ≤ e) (he : e < 16) (hlen : ds.length ≤ e.toNat + 1)
    (hd : ∀ c ∈ ds, c.isDigit) (hne : ds ≠ []) (hz : ds.head? ≠ some 0x30) (hr : Closes rest) :
    ReadsFloat (Binary64.layout ds e ++ rest) rest fun negative =>
      Binary64.ofDecimal negative (Numeral.toNat ds) (e + 1 - ds.length) := by
  let zeros : Text := List.replicate (e.toNat + 1 - ds.length) 0x30
  have hhead : (ds ++ zeros).head? ≠ some 0x30 := by
    rwa [List.head?_append, List.head?_eq_some_head hne, Option.some_or, ← List.head?_eq_some_head]
  have hall : ∀ c ∈ ds ++ zeros, c.isDigit := List.forall_mem_append.mpr ⟨hd, isDigit_of_mem_zeros⟩
  have hlayout : Binary64.layout ds e ++ rest = ds ++ zeros ++ 0x2E :: ([0x30] ++ rest) := by
    rw [layout_of_length_le he0 he hlen, List.append_assoc]
    rfl
  have hnumber : takeNumber (Binary64.layout ds e ++ rest) = ⟨ds ++ zeros, [0x30], none, rest⟩ := by
    rw [hlayout]
    have hwhole := takeWhole_append (by simp [hne]) hhead hall (stopsAt_point ([0x30] ++ rest))
    exact takeNumber_of_point hwhole (List.cons_ne_nil _ _) isDigit_zero hr
  apply (readsFloat_of_fraction hnumber (by simp [hne]) (by simp)).congr
  intro negative
  have hvalue : Numeral.toNat (ds ++ zeros ++ [0x30])
      = Numeral.toNat ds * 10 ^ (e.toNat + 1 - ds.length + 1) := by
    rw [List.append_assoc, ← List.replicate_succ', Numeral.toNat_append_zeros]
  have hexponent : 0 - (([0x30] : Text).length : Int) + (e.toNat + 1 - ds.length + 1 : Nat)
      = e + 1 - (ds.length : Int) := by
    rw [List.length_singleton]
    omega
  rw [hvalue, Binary64.ofDecimal_mul_pow, Option.getD_none, hexponent]

/-- The digits on the two sides of a point are those of the layout together. -/
theorem readsFloat_layout_split (he0 : 0 ≤ e) (he : e < 16) (hlen : e.toNat + 1 < ds.length)
    (hd : ∀ c ∈ ds, c.isDigit) (hz : ds.head? ≠ some 0x30) (hr : Closes rest) :
    ReadsFloat (Binary64.layout ds e ++ rest) rest fun negative =>
      Binary64.ofDecimal negative (Numeral.toNat ds) (e + 1 - ds.length) := by
  let whole := ds.take (e.toNat + 1)
  let fraction := ds.drop (e.toNat + 1)
  have hwne : whole ≠ [] := List.ne_nil_of_length_pos (by simp only [whole, List.length_take]; omega)
  have hfne : fraction ≠ [] := List.ne_nil_of_length_pos (by simp only [fraction, List.length_drop]; omega)
  have hhead : whole.head? ≠ some 0x30 := by rwa [List.head?_take, if_neg (Nat.succ_ne_zero _)]
  have hnumber : takeNumber (Binary64.layout ds e ++ rest) = ⟨whole, fraction, none, rest⟩ := by
    rw [layout_of_lt_length he0 he hlen, List.append_assoc]
    have hwhole := takeWhole_append hwne hhead (fun c hc => hd c (List.mem_of_mem_take hc))
      (stopsAt_point (fraction ++ rest))
    exact takeNumber_of_point hwhole hfne (fun c hc => hd c (List.mem_of_mem_drop hc)) hr
  apply (readsFloat_of_fraction hnumber hwne hfne).congr
  intro negative
  have hexponent : 0 - (fraction.length : Int) = e + 1 - (ds.length : Int) := by
    simp only [fraction, List.length_drop]
    omega
  rw [List.take_append_drop, Option.getD_none, hexponent]

/-- However the digits of a float are laid out, they read as the float that they are the digits of. -/
theorem readsFloat_layout (hd : ∀ c ∈ ds, c.isDigit) (hne : ds ≠ []) (hz : ds.head? ≠ some 0x30)
    (hr : Closes rest) :
    ReadsFloat (Binary64.layout ds e ++ rest) rest fun negative =>
      Binary64.ofDecimal negative (Numeral.toNat ds) (e + 1 - ds.length) := by
  by_cases hout : e < -4 ∨ 16 ≤ e
  · exact readsFloat_layout_exponent hout hd hne hz hr
  · obtain ⟨hlow, hhigh⟩ : -4 ≤ e ∧ e < 16 := by omega
    by_cases he : e < 0
    · exact readsFloat_layout_small hlow he hd hne hr
    · rcases Nat.lt_or_ge (e.toNat + 1) ds.length with hlen | hlen
      · exact readsFloat_layout_split (Int.not_lt.mp he) hhigh hlen hd hz hr
      · exact readsFloat_layout_filled (Int.not_lt.mp he) hhigh hlen hd hne hz hr

end Layout

/-- A run of digits is what is left of it without the zeros at its end, and these zeros. -/
theorem dropTrailingZeros_append (t : Text) :
    ∃ k, Binary64.dropTrailingZeros t ++ List.replicate k 0x30 = t := by
  let isZero : CodePoint → Bool := fun c => c = CodePoint.ofChar '0'
  have hzero : ∀ c ∈ t.reverse.takeWhile isZero, c = 0x30 := fun c hc =>
    of_decide_eq_true (List.mem_takeWhile_imp (p := isZero) hc)
  have hzeros := List.eq_replicate_iff.mpr ⟨rfl, hzero⟩
  refine ⟨(t.reverse.takeWhile isZero).length, ?_⟩
  calc Binary64.dropTrailingZeros t ++ List.replicate (t.reverse.takeWhile isZero).length 0x30
      = (t.reverse.dropWhile isZero).reverse ++ (t.reverse.takeWhile isZero).reverse := by
        conv_rhs => rw [hzeros, List.reverse_replicate]
        rfl
    _ = t := by rw [← List.reverse_append, List.takeWhile_append_dropWhile, List.reverse_reverse]

/-- The text of a magnitude is split off whole and denotes the float of the magnitude. -/
theorem readsFloat_magnitudeText {place : Nat} (h : place < magnitudeCount) {rest : Text}
    (hr : Closes rest) :
    ReadsFloat (Binary64.magnitudeText place ++ rest) rest fun negative => .finite negative ⟨place, h⟩ := by
  by_cases hp : place = 0
  · have hnumber : takeNumber (0x30 :: 0x2E :: ([0x30] ++ rest)) = ⟨[0x30], [0x30], none, rest⟩ :=
      takeNumber_of_point (takeWhole_zero _) (List.cons_ne_nil _ _) isDigit_zero hr
    rw [Binary64.magnitudeText, if_pos hp]
    apply (readsFloat_of_fraction hnumber (by simp) (by simp)).congr
    intro negative
    subst hp
    rfl
  · -- The layout drops the zeros at the end of the digits; what is read gets them back in its exponent.
    let d := Binary64.shortest place
    have hdigits : d.digits ≠ 0 := Binary64.digits_shortest_ne_zero hp h
    obtain ⟨k, hk⟩ := dropTrailingZeros_append (Numeral.ofNat d.digits)
    let ds := Binary64.dropTrailingZeros (Numeral.ofNat d.digits)
    have hvalue : Numeral.toNat ds * 10 ^ k = d.digits := by
      rw [← Numeral.toNat_append_zeros, hk, Numeral.toNat_ofNat]
    have hne : ds ≠ [] := by
      intro hnil
      rw [hnil] at hvalue
      exact hdigits (hvalue.symm.trans (Nat.zero_mul _))
    have hhead : ds.head? ≠ some 0x30 := by
      have hlead := Numeral.head?_ofNat hdigits
      rw [← hk, List.head?_append] at hlead
      rwa [List.head?_eq_some_head hne, Option.some_or, ← List.head?_eq_some_head] at hlead
    have hall : ∀ c ∈ ds, c.isDigit := fun c hc =>
      Numeral.isDigit_of_mem_ofNat c (hk ▸ List.mem_append_left _ hc)
    rw [Binary64.magnitudeText, if_neg hp]
    apply (readsFloat_layout hall hne hhead hr).congr
    intro negative
    have hexponent : d.exponent + (Numeral.ofNat d.digits).length - 1 + 1 - (ds.length : Int)
        = d.exponent + k := by
      have hlen := congrArg List.length hk
      rw [List.length_append, List.length_replicate] at hlen
      change ds.length + k = _ at hlen
      omega
    rw [hexponent, ← Binary64.ofDecimal_mul_pow, hvalue, Binary64.ofDecimal_shortest hp h]

end CanonStore.Json
