import CanonStore.Base64
import Mathlib.Data.List.TakeWhile

/-!
# Base64 written and read back

Octets that are written in the URL-safe alphabet read back to themselves, also for a reader that takes
both alphabets and any amount of padding (`decodeAny?_encodeWith`). What is written splits into digits
and padding signs, `Padded`; the digits alone determine the octets. `encodeWith_urlSafe_eq_iff` says for which
octets the two alphabets agree.
-/

namespace CanonStore.Base64

/-! ## Alphabets -/

/-- Every value below 64 is read from its digit, and no digit is the padding sign. -/
structure Alphabet.Lawful (a : Alphabet) : Prop where
  value?_digit : ∀ n < 64, a.value? (a.digit n) = some n
  digit_ne_pad : ∀ n < 64, a.digit n ≠ pad

theorem lawful_urlSafe : urlSafe.Lawful := ⟨by decide, by decide⟩

theorem lawful_standard : standard.Lawful := ⟨by decide, by decide⟩

/-! ## Digits and padding -/

/-- The text of octets: digits, then padding signs. -/
structure Padded (a : Alphabet) (bytes : Bytes) (digits : Text) (pads : Nat) : Prop where
  text_eq : encodeWith a bytes = digits ++ List.replicate pads pad
  ne_pad : ∀ c ∈ digits, c ≠ pad
  read_eq : digits? a digits = some bytes
  count : pads = 0 ∨ 2 ≤ digits.length % 4 ∧ digits.length % 4 + pads ≤ 4

theorem octet_of_eq {x : UInt8} {n : Nat} (h : n = x.toNat) : UInt8.ofNat n = x := by
  rw [h, UInt8.ofNat_toNat]

section Groups

variable {a : Alphabet} (ha : a.Lawful)

include ha

theorem padded_one (x : UInt8) :
    Padded a [x] [a.digit (x.toNat / 4), a.digit (x.toNat % 4 * 16)] 2 := by
  have hx : x.toNat < 256 := x.toNat_lt
  refine ⟨rfl, ?_, ?_, .inr ⟨Nat.le_refl 2, Nat.le_refl 4⟩⟩
  · intro c hc
    simp only [List.mem_cons, List.not_mem_nil, or_false] at hc
    rcases hc with rfl | rfl
    · exact ha.digit_ne_pad _ (by omega)
    · exact ha.digit_ne_pad _ (by omega)
  · have hzero : x.toNat % 4 * 16 % 16 = 0 := by omega
    simp only [digits?, ha.value?_digit (x.toNat / 4) (by omega),
      ha.value?_digit (x.toNat % 4 * 16) (by omega), Option.bind_eq_bind, Option.bind_some, if_pos hzero]
    rw [octet_of_eq (x := x) (by omega)]

theorem padded_two (x y : UInt8) :
    Padded a [x, y] [a.digit (x.toNat / 4), a.digit (x.toNat % 4 * 16 + y.toNat / 16),
      a.digit (y.toNat % 16 * 4)] 1 := by
  have hx : x.toNat < 256 := x.toNat_lt
  have hy : y.toNat < 256 := y.toNat_lt
  refine ⟨rfl, ?_, ?_, .inr ⟨Nat.le_succ 2, Nat.le_refl 4⟩⟩
  · intro c hc
    simp only [List.mem_cons, List.not_mem_nil, or_false] at hc
    rcases hc with rfl | rfl | rfl
    · exact ha.digit_ne_pad _ (by omega)
    · exact ha.digit_ne_pad _ (by omega)
    · exact ha.digit_ne_pad _ (by omega)
  · have hzero : y.toNat % 16 * 4 % 4 = 0 := by omega
    simp only [digits?, ha.value?_digit (x.toNat / 4) (by omega),
      ha.value?_digit (x.toNat % 4 * 16 + y.toNat / 16) (by omega),
      ha.value?_digit (y.toNat % 16 * 4) (by omega), Option.bind_eq_bind, Option.bind_some, if_pos hzero]
    rw [octet_of_eq (x := x) (by omega), octet_of_eq (x := y) (by omega)]

/-- A full group of four digits in front. -/
theorem padded_three (x y z : UInt8) {rest : Bytes} {digits : Text} {pads : Nat}
    (h : Padded a rest digits pads) :
    Padded a (x :: y :: z :: rest) (a.digit (x.toNat / 4) :: a.digit (x.toNat % 4 * 16 + y.toNat / 16) ::
      a.digit (y.toNat % 16 * 4 + z.toNat / 64) :: a.digit (z.toNat % 64) :: digits) pads := by
  have hx : x.toNat < 256 := x.toNat_lt
  have hy : y.toNat < 256 := y.toNat_lt
  have hz : z.toNat < 256 := z.toNat_lt
  refine ⟨?_, ?_, ?_, ?_⟩
  · rw [encodeWith, h.text_eq]
    rfl
  · simp only [List.forall_mem_cons]
    exact ⟨ha.digit_ne_pad _ (by omega), ha.digit_ne_pad _ (by omega), ha.digit_ne_pad _ (by omega),
      ha.digit_ne_pad _ (by omega), h.ne_pad⟩
  · simp only [digits?, ha.value?_digit (x.toNat / 4) (by omega),
      ha.value?_digit (x.toNat % 4 * 16 + y.toNat / 16) (by omega),
      ha.value?_digit (y.toNat % 16 * 4 + z.toNat / 64) (by omega),
      ha.value?_digit (z.toNat % 64) (by omega), h.read_eq, Option.bind_eq_bind, Option.bind_some]
    rw [octet_of_eq (x := x) (by omega), octet_of_eq (x := y) (by omega), octet_of_eq (x := z) (by omega)]
  · have hcount := h.count
    simp only [List.length_cons]
    omega

theorem exists_padded : ∀ bytes : Bytes, ∃ digits pads, Padded a bytes digits pads
  | [] => ⟨[], 0, ⟨rfl, fun _ h => (nomatch h), rfl, .inl rfl⟩⟩
  | [x] => ⟨_, _, padded_one ha x⟩
  | [x, y] => ⟨_, _, padded_two ha x y⟩
  | x :: y :: z :: rest => by
    obtain ⟨digits, pads, h⟩ := exists_padded rest
    exact ⟨_, pads, padded_three ha x y z h⟩

end Groups

/-! ## Reading -/

/-- Padding signs are split off, and only they. -/
theorem splitPadding_append {digits : Text} (h : ∀ c ∈ digits, c ≠ pad) (pads : Nat) :
    splitPadding (digits ++ List.replicate pads pad) = (digits, pads) := by
  have hdrop : (digits ++ List.replicate pads pad).reverse.dropWhile (fun c => c = pad) = digits.reverse := by
    -- Seen from the end the padding comes first, and the digits after it start with no padding sign.
    rw [List.reverse_append, List.reverse_replicate, List.dropWhile_append_of_pos]
    · refine List.dropWhile_eq_self_iff.mpr fun hlt => ?_
      have hmem : digits.reverse[0] ∈ digits := List.mem_reverse.mp (List.getElem_mem hlt)
      simpa using h _ hmem
    · intro c hc
      exact decide_eq_true (List.eq_of_mem_replicate hc)
  rw [splitPadding, hdrop, List.reverse_reverse, List.length_append, List.length_replicate,
    Nat.add_sub_cancel_left]

/-- Octets are read back in the alphabet in which they were written. -/
theorem decodeLoose?_encodeWith {a : Alphabet} (ha : a.Lawful) (bytes : Bytes) :
    decodeLoose? a (encodeWith a bytes) = some bytes := by
  obtain ⟨digits, pads, h⟩ := exists_padded ha bytes
  have hcount : (pads = 0 || (2 ≤ digits.length % 4 && digits.length % 4 + pads ≤ 4)) = true := by
    simpa using h.count
  rw [h.text_eq, decodeLoose?, splitPadding_append h.ne_pad]
  exact (if_pos hcount).trans h.read_eq

theorem decodeAny?_encodeWith (bytes : Bytes) : decodeAny? (encodeWith urlSafe bytes) = some bytes := by
  rw [decodeAny?, decodeLoose?_encodeWith lawful_urlSafe]
  rfl

/-! ## Both alphabets -/

/-- The code point is one of the two in which the alphabets differ. -/
def IsDisputed (c : CodePoint) : Prop := c = standard.plus ∨ c = standard.slash

instance : DecidablePred IsDisputed := fun c =>
  inferInstanceAs (Decidable (c = standard.plus ∨ c = standard.slash))

theorem digit_eq_iff : ∀ n < 64, urlSafe.digit n = standard.digit n ↔ ¬ IsDisputed (standard.digit n) := by
  decide

theorem not_isDisputed_pad : ¬ IsDisputed pad := by decide

/-- Octets have one text in both alphabets exactly if the standard one spells them without its plus and its
slash. -/
theorem encodeWith_urlSafe_eq_iff (bytes : Bytes) :
    encodeWith urlSafe bytes = encode bytes ↔ ∀ c ∈ encode bytes, ¬ IsDisputed c := by
  unfold encode
  -- By groups of three octets. Digit for digit the two alphabets agree except where one is disputed, and
  -- padding never is.
  induction bytes using encodeWith.induct with
  | case1 => simp [encodeWith]
  | case2 x =>
    have hx : x.toNat < 256 := x.toNat_lt
    simp only [encodeWith, List.cons.injEq, List.forall_mem_cons, digit_eq_iff (x.toNat / 4) (by omega),
      digit_eq_iff (x.toNat % 4 * 16) (by omega)]
    simp [not_isDisputed_pad]
  | case3 x y =>
    have hx : x.toNat < 256 := x.toNat_lt
    have hy : y.toNat < 256 := y.toNat_lt
    simp only [encodeWith, List.cons.injEq, List.forall_mem_cons, digit_eq_iff (x.toNat / 4) (by omega),
      digit_eq_iff (x.toNat % 4 * 16 + y.toNat / 16) (by omega), digit_eq_iff (y.toNat % 16 * 4) (by omega)]
    simp [not_isDisputed_pad]
  | case4 x y z rest ih =>
    have hx : x.toNat < 256 := x.toNat_lt
    have hy : y.toNat < 256 := y.toNat_lt
    have hz : z.toNat < 256 := z.toNat_lt
    simp only [encodeWith, List.cons.injEq, List.forall_mem_cons, digit_eq_iff (x.toNat / 4) (by omega),
      digit_eq_iff (x.toNat % 4 * 16 + y.toNat / 16) (by omega),
      digit_eq_iff (y.toNat % 16 * 4 + z.toNat / 64) (by omega), digit_eq_iff (z.toNat % 64) (by omega), ih]

end CanonStore.Base64
