import CanonStore.Proofs.Parts
import CanonStore.Text.Encoding
import Mathlib.Data.List.TakeWhile

/-!
# UTF-8 written and read back

The octets of a text without surrogates read back to that text, whether or not the reader lets
surrogates pass. There is one lemma for each length of a sequence, over any octets of that shape;
`decodeFrom_encodeOne` says which shape the octets of a code point have. Octets that are cut short are
those of a text that is cut short, or they cannot be read (`decodeFrom_cut`). A reader that has to find
out the encoding takes octets for UTF-8, even if they are cut short, if the text starts with two code
points that are not zero, the first of them in ASCII (`detect_of_isPrefix`).
-/

namespace CanonStore.Utf8

/-! ## Sequences -/

section Sequences

variable {surrogates : Bool} {position : Nat} {a b c d : UInt8} {rest : Bytes}

/-- An octet below 0x80 is read on its own. -/
theorem decodeFrom_one (ha : a.toNat < 0x80) :
    decodeFrom surrogates position (a :: rest) =
      (decodeFrom surrogates (position + 1) rest).map (CodePoint.ofByte a :: ·) := by
  rw [decodeFrom.eq_def surrogates position (a :: rest)]
  exact if_pos ha

/-- The form of two octets. -/
theorem decodeFrom_two (ha : 0xC2 ≤ a.toNat ∧ a.toNat < 0xE0) (hb : isContinuation b) :
    decodeFrom surrogates position (a :: b :: rest) =
      (decodeFrom surrogates (position + 2) rest).map
        (CodePoint.ofNat ((a.toNat - 0xC0) * 0x40 + bits b) :: ·) := by
  have hstart : ¬ (a.toNat < 0xC2 || 0xF4 < a.toNat) := by
    simp only [Bool.or_eq_true, decide_eq_true_eq]
    omega
  rw [decodeFrom.eq_def surrogates position (a :: b :: rest)]
  dsimp only
  rw [if_neg (by omega), if_neg hstart, if_pos ha.2, if_pos hb]

/-- The form of three octets, of which some spell surrogates. -/
theorem decodeFrom_three (ha : 0xE0 ≤ a.toNat ∧ a.toNat < 0xF0)
    (hb : isSecondOfThree (surrogates && isSurrogateForm (a :: b :: c :: rest)) a b)
    (hc : isContinuation c) :
    decodeFrom surrogates position (a :: b :: c :: rest) =
      (decodeFrom surrogates (position + 3) rest).map
        (CodePoint.ofNat ((a.toNat - 0xE0) * 0x1000 + bits b * 0x40 + bits c) :: ·) := by
  have hstart : ¬ (a.toNat < 0xC2 || 0xF4 < a.toNat) := by
    simp only [Bool.or_eq_true, decide_eq_true_eq]
    omega
  rw [decodeFrom.eq_def surrogates position (a :: b :: c :: rest)]
  dsimp only
  rw [if_neg (by omega), if_neg hstart, if_neg (by omega), if_pos ha.2]
  simp only [hb, hc, Bool.not_true, Bool.false_eq_true, if_false, if_true]

/-- The form of four octets. -/
theorem decodeFrom_four (ha : 0xF0 ≤ a.toNat ∧ a.toNat ≤ 0xF4) (hb : isSecondOfFour a b)
    (hc : isContinuation c) (hd : isContinuation d) :
    decodeFrom surrogates position (a :: b :: c :: d :: rest) =
      (decodeFrom surrogates (position + 4) rest).map
        (CodePoint.ofNat ((a.toNat - 0xF0) * 0x40000 + bits b * 0x1000 + bits c * 0x40 + bits d) :: ·) := by
  have hstart : ¬ (a.toNat < 0xC2 || 0xF4 < a.toNat) := by
    simp only [Bool.or_eq_true, decide_eq_true_eq]
    omega
  rw [decodeFrom.eq_def surrogates position (a :: b :: c :: d :: rest)]
  dsimp only
  rw [if_neg (by omega), if_neg hstart, if_neg (by omega), if_neg (by omega)]
  simp only [hb, hc, hd, Bool.not_true, Bool.false_eq_true, if_false, if_true]

end Sequences

/-! ## Octets by their numbers -/

theorem toNat_octet {n : Nat} (h : n < 0x100) : (UInt8.ofNat n).toNat = n :=
  UInt8.toNat_ofNat_of_lt' h

/-- Six bits make an octet that goes on. -/
theorem isContinuation_octet {n : Nat} (h : n < 0x40) : isContinuation (UInt8.ofNat (0x80 + n)) := by
  rw [isContinuation, toNat_octet (by omega), Bool.and_eq_true, decide_eq_true_eq, decide_eq_true_eq]
  omega

/-- An octet that goes on has the bits that it was made of. -/
theorem bits_octet {n : Nat} (h : n < 0x40) : bits (UInt8.ofNat (0x80 + n)) = n := by
  rw [bits, toNat_octet (by omega)]
  omega

theorem octet_eq_iff {n : Nat} (h : n < 0x100) (b : UInt8) : UInt8.ofNat n = b ↔ n = b.toNat := by
  rw [← UInt8.toNat_inj, toNat_octet h]

theorem isSurrogate_iff (c : CodePoint) : c.isSurrogate ↔ 0xD800 ≤ c.val ∧ c.val ≤ 0xDFFF := by
  rw [CodePoint.isSurrogate, Bool.and_eq_true, decide_eq_true_eq, decide_eq_true_eq]

/-- A code point is known by its number. -/
theorem ofNat_val {c : CodePoint} {n : Nat} (h : n = c.val) : CodePoint.ofNat n = c := by
  rw [h]
  exact Fin.ofNat_val_eq_self c

/-- The second octet of three: neither an overlong form nor a surrogate. -/
theorem isSecondOfThree_octets (pass : Bool) {n : Nat} (hlow : 0x800 ≤ n) (hhigh : n < 0x10000)
    (hs : ¬ (0xD800 ≤ n ∧ n ≤ 0xDFFF)) :
    isSecondOfThree pass (UInt8.ofNat (0xE0 + n / 0x1000)) (UInt8.ofNat (0x80 + n / 0x40 % 0x40)) := by
  have hfirst : UInt8.ofNat (0xE0 + n / 0x1000) = 0xE0 ↔ 0xE0 + n / 0x1000 = 0xE0 :=
    octet_eq_iff (by omega) 0xE0
  have hlast : UInt8.ofNat (0xE0 + n / 0x1000) = 0xED ↔ 0xE0 + n / 0x1000 = 0xED :=
    octet_eq_iff (by omega) 0xED
  rw [isSecondOfThree, isContinuation_octet (Nat.mod_lt _ (by omega)), toNat_octet (by omega)]
  simp only [hfirst, hlast, Bool.true_and, Bool.and_eq_true, Bool.not_eq_true', Bool.and_eq_false_iff,
    decide_eq_false_iff_not, Bool.not_eq_false']
  omega

/-- The second octet of four: neither an overlong form nor beyond the code space. -/
theorem isSecondOfFour_octets {n : Nat} (hlow : 0x10000 ≤ n) (hhigh : n < 0x110000) :
    isSecondOfFour (UInt8.ofNat (0xF0 + n / 0x40000)) (UInt8.ofNat (0x80 + n / 0x1000 % 0x40)) := by
  have hfirst : UInt8.ofNat (0xF0 + n / 0x40000) = 0xF0 ↔ 0xF0 + n / 0x40000 = 0xF0 :=
    octet_eq_iff (by omega) 0xF0
  have hlast : UInt8.ofNat (0xF0 + n / 0x40000) = 0xF4 ↔ 0xF0 + n / 0x40000 = 0xF4 :=
    octet_eq_iff (by omega) 0xF4
  rw [isSecondOfFour, isContinuation_octet (Nat.mod_lt _ (by omega)), toNat_octet (by omega)]
  simp only [hfirst, hlast, Bool.true_and, Bool.and_eq_true, Bool.not_eq_true', Bool.and_eq_false_iff,
    decide_eq_false_iff_not]
  omega

/-! ## Texts -/

/-- The octets of a code point are read as that code point. -/
theorem decodeFrom_encodeOne (surrogates : Bool) (position : Nat) {c : CodePoint}
    (hc : c.isSurrogate = false) (rest : Bytes) :
    ∃ next, decodeFrom surrogates position (encodeOne c ++ rest) =
      (decodeFrom surrogates next rest).map (c :: ·) := by
  have hlt : c.val < 0x110000 := c.isLt
  have hs : ¬ (0xD800 ≤ c.val ∧ c.val ≤ 0xDFFF) := by
    rw [← isSurrogate_iff, hc]
    exact Bool.false_ne_true
  -- The form by length is the one whose lemma applies; the bits put together give the code point again.
  rw [encodeOne]
  split
  · next h1 =>
    refine ⟨position + 1, ?_⟩
    rw [List.singleton_append, decodeFrom_one (by rw [toNat_octet (by omega)]; exact h1),
      CodePoint.ofByte, toNat_octet (by omega), ofNat_val (c := c) rfl]
  split
  · next h1 h2 =>
    refine ⟨position + 2, ?_⟩
    have hfirst : (UInt8.ofNat (0xC0 + c.val / 0x40)).toNat = 0xC0 + c.val / 0x40 :=
      toNat_octet (by omega)
    have htail : c.val % 0x40 < 0x40 := Nat.mod_lt _ (by omega)
    rw [List.cons_append, List.cons_append, List.nil_append,
      decodeFrom_two (by omega) (isContinuation_octet htail), hfirst, bits_octet htail,
      ofNat_val (c := c) (by omega)]
  split
  · next h1 h2 h3 =>
    refine ⟨position + 3, ?_⟩
    have hfirst : (UInt8.ofNat (0xE0 + c.val / 0x1000)).toNat = 0xE0 + c.val / 0x1000 :=
      toNat_octet (by omega)
    have hmid : c.val / 0x40 % 0x40 < 0x40 := Nat.mod_lt _ (by omega)
    have htail : c.val % 0x40 < 0x40 := Nat.mod_lt _ (by omega)
    rw [List.cons_append, List.cons_append, List.cons_append, List.nil_append,
      decodeFrom_three (by omega) (isSecondOfThree_octets _ (by omega) h3 hs)
        (isContinuation_octet htail),
      hfirst, bits_octet hmid, bits_octet htail, ofNat_val (c := c) (by omega)]
  · next h1 h2 h3 =>
    refine ⟨position + 4, ?_⟩
    have hfirst : (UInt8.ofNat (0xF0 + c.val / 0x40000)).toNat = 0xF0 + c.val / 0x40000 :=
      toNat_octet (by omega)
    have hhigh : c.val / 0x1000 % 0x40 < 0x40 := Nat.mod_lt _ (by omega)
    have hmid : c.val / 0x40 % 0x40 < 0x40 := Nat.mod_lt _ (by omega)
    have htail : c.val % 0x40 < 0x40 := Nat.mod_lt _ (by omega)
    rw [List.cons_append, List.cons_append, List.cons_append, List.cons_append, List.nil_append,
      decodeFrom_four (by omega) (isSecondOfFour_octets (by omega) hlt) (isContinuation_octet hmid)
        (isContinuation_octet htail),
      hfirst, bits_octet hhigh, bits_octet hmid, bits_octet htail, ofNat_val (c := c) (by omega)]

/-- A text without surrogates is read back, wherever it stands. -/
theorem decodeFrom_encodeAny (surrogates : Bool) {t : Text} (h : ∀ c ∈ t, c.isSurrogate = false)
    (position : Nat) : decodeFrom surrogates position (encodeAny t) = .ok t := by
  induction t generalizing position with
  | nil => rfl
  | cons c t ih =>
    obtain ⟨hc, ht⟩ := List.forall_mem_cons.mp h
    obtain ⟨next, hnext⟩ := decodeFrom_encodeOne surrogates position hc (encodeAny t)
    show decodeFrom surrogates position (encodeOne c ++ encodeAny t) = _
    rw [hnext, ih ht next]
    rfl

/-- A text has no run of surrogates if it has no surrogate. -/
theorem surrogateRun?_eq_none_iff (t : Text) :
    surrogateRun? t = none ↔ ∀ c ∈ t, c.isSurrogate = false := by
  have hdrop : (t.dropWhile fun c => !c.isSurrogate) = [] ↔ ∀ c ∈ t, c.isSurrogate = false := by
    rw [List.dropWhile_eq_nil_iff]
    simp only [Bool.not_eq_true']
  rw [← hdrop, surrogateRun?]
  split
  · next heq => simp only [heq]
  · next heq => simp only [heq, reduceCtorEq]

/-- A text has octets exactly if it holds no surrogate. -/
theorem encode_eq_ok_iff (t : Text) (bytes : Bytes) :
    encode t = .ok bytes ↔ (∀ c ∈ t, c.isSurrogate = false) ∧ bytes = encodeAny t := by
  rw [← surrogateRun?_eq_none_iff, encode]
  cases surrogateRun? t with
  | none =>
    simp only [Except.ok.injEq, true_and]
    exact eq_comm
  | some fault => simp only [reduceCtorEq, false_and]

/-- What is written is read back, however the reader treats surrogates. -/
theorem decode_of_encode {t : Text} {bytes : Bytes} (h : encode t = .ok bytes) (surrogates : Bool) :
    decode surrogates bytes = .ok t := by
  obtain ⟨hall, rfl⟩ := (encode_eq_ok_iff t bytes).mp h
  exact decodeFrom_encodeAny surrogates hall 0

/-! ## Octets cut short -/

section Cuts

variable {surrogates : Bool} {position : Nat} {a b c : UInt8}

/-- The first of several octets alone. -/
theorem decodeFrom_first (ha : 0x80 ≤ a.toNat) : ∃ fault, decodeFrom surrogates position [a] = .error fault := by
  rw [decodeFrom.eq_def]
  dsimp only
  rw [if_neg (by omega)]
  repeat' split
  all_goals exact ⟨_, rfl⟩

/-- The first two octets of a longer form cannot be read. -/
theorem decodeFrom_first_two (ha : 0xE0 ≤ a.toNat) :
    ∃ fault, decodeFrom surrogates position [a, b] = .error fault := by
  rw [decodeFrom.eq_def]
  dsimp only
  rw [if_neg (by omega), if_neg (by omega : ¬ a.toNat < 0xE0)]
  repeat' split
  all_goals exact ⟨_, rfl⟩

/-- The first three octets of the longest form cannot be read. -/
theorem decodeFrom_first_three (ha : 0xF0 ≤ a.toNat) :
    ∃ fault, decodeFrom surrogates position [a, b, c] = .error fault := by
  rw [decodeFrom.eq_def]
  dsimp only
  rw [if_neg (by omega), if_neg (by omega : ¬ a.toNat < 0xE0), if_neg (by omega : ¬ a.toNat < 0xF0)]
  repeat' split
  all_goals exact ⟨_, rfl⟩

theorem le_toNat_octet {m n : Nat} (hm : m ≤ n) (h : n < 0x100) : m ≤ (UInt8.ofNat n).toNat := by
  rwa [toNat_octet h]

/-- A code point is not read from some of its octets. -/
theorem decodeFrom_cut_encodeOne {c : CodePoint} {p : Bytes} (h : Cut p (encodeOne c)) (hne : p ≠ []) :
    ∃ fault, decodeFrom surrogates position p = .error fault := by
  have hlt : c.val < 0x110000 := c.isLt
  rw [encodeOne] at h
  -- By the length of the form: a proper start of it is its first octet, or its first two or three.
  split at h
  · exact absurd h.eq_nil_of_singleton hne
  split at h
  · rcases cut_cons_iff.mp h with rfl | ⟨q, rfl, hq⟩
    · exact absurd rfl hne
    obtain rfl := hq.eq_nil_of_singleton
    exact decodeFrom_first (le_toNat_octet (by omega) (by omega))
  split at h
  · rcases cut_cons_iff.mp h with rfl | ⟨q, rfl, hq⟩
    · exact absurd rfl hne
    rcases cut_cons_iff.mp hq with rfl | ⟨r, rfl, hr⟩
    · exact decodeFrom_first (le_toNat_octet (by omega) (by omega))
    obtain rfl := hr.eq_nil_of_singleton
    exact decodeFrom_first_two (le_toNat_octet (by omega) (by omega))
  · rcases cut_cons_iff.mp h with rfl | ⟨q, rfl, hq⟩
    · exact absurd rfl hne
    rcases cut_cons_iff.mp hq with rfl | ⟨r, rfl, hr⟩
    · exact decodeFrom_first (le_toNat_octet (by omega) (by omega))
    rcases cut_cons_iff.mp hr with rfl | ⟨s, rfl, hs⟩
    · exact decodeFrom_first_two (le_toNat_octet (by omega) (by omega))
    obtain rfl := hs.eq_nil_of_singleton
    exact decodeFrom_first_three (le_toNat_octet (by omega) (by omega))

/-- The octets of a text are cut between two code points, or what is left of them cannot be read. -/
theorem decodeFrom_cut {t : Text} (ht : ∀ c ∈ t, c.isSurrogate = false) {p : Bytes}
    (h : Cut p (encodeAny t)) (position : Nat) :
    (∃ u, Cut u t ∧ p = encodeAny u) ∨ ∃ fault, decodeFrom surrogates position p = .error fault := by
  induction t generalizing position p with
  | nil => exact absurd h not_cut_nil
  | cons c t ih =>
    obtain ⟨hc, ht⟩ := List.forall_mem_cons.mp ht
    rcases Cut.append_cases (s := encodeOne c) (t := encodeAny t) h with hp | ⟨q, rfl, hq⟩
    · by_cases hne : p = []
      · exact .inl ⟨[], cut_nil_of_ne (List.cons_ne_nil c t), hne⟩
      · exact .inr (decodeFrom_cut_encodeOne hp hne)
    · obtain ⟨next, hnext⟩ := decodeFrom_encodeOne surrogates position hc q
      rcases ih ht hq next with ⟨u, hu, rfl⟩ | ⟨fault, hfault⟩
      · exact .inl ⟨c :: u, cut_cons_iff.mpr (.inr ⟨u, rfl, hu⟩), rfl⟩
      · refine .inr ⟨fault, ?_⟩
        rw [hnext, hfault]
        rfl

end Cuts

/-! ## Finding out the encoding -/

/-- A character of ASCII is written as one octet. -/
theorem encodeOne_of_isAscii {c : CodePoint} (h : c.isAscii) : encodeOne c = [UInt8.ofNat c.val] := by
  rw [CodePoint.isAscii, decide_eq_true_eq] at h
  exact if_pos h

/-- Only the code point zero has an octet zero in front. -/
theorem exists_encodeOne_cons {c : CodePoint} (h : c ≠ 0) :
    ∃ b rest, encodeOne c = b :: rest ∧ b ≠ 0 := by
  have hpos : 0 < c.val := Nat.pos_of_ne_zero fun hc => h (Fin.ext hc)
  have hlt : c.val < 0x110000 := c.isLt
  have hne : ∀ n : Nat, 0 < n → n < 0x100 → UInt8.ofNat n ≠ 0 := by
    intro n hn hlt heq
    exact absurd ((octet_eq_iff hlt 0).mp heq) (Nat.ne_of_gt hn)
  unfold encodeOne
  dsimp only
  repeat' split
  · exact ⟨_, _, rfl, hne _ hpos (by omega)⟩
  · exact ⟨_, _, rfl, hne _ (by omega) (by omega)⟩
  · exact ⟨_, _, rfl, hne _ (by omega) (by omega)⟩
  · exact ⟨_, _, rfl, hne _ (by omega) (by omega)⟩

/-- No byte order mark starts with an octet of ASCII other than zero. -/
theorem ofMark?_eq_none {a : UInt8} (h : a ≠ 0) (ha : a.toNat < 0x80) (rest : Bytes) :
    Encoding.ofMark? (a :: rest) = none := by
  have hne : ∀ b : UInt8, 0x80 ≤ b.toNat → a ≠ b := by
    rintro b hb rfl
    omega
  unfold Encoding.ofMark?
  split
  · next heq => exact absurd (List.cons.inj heq).1 h
  · next heq => exact absurd (List.cons.inj heq).1 (hne 0xFF (by decide))
  · next heq => exact absurd (List.cons.inj heq).1 (hne 0xFE (by decide))
  · next heq => exact absurd (List.cons.inj heq).1 (hne 0xFF (by decide))
  · next heq => exact absurd (List.cons.inj heq).1 (hne 0xEF (by decide))
  · rfl

/-- Two octets of which none is zero are the start of UTF-8. -/
theorem ofZeros_eq_utf8 {a b : UInt8} (ha : a ≠ 0) (hb : b ≠ 0) (rest : Bytes) :
    Encoding.ofZeros (a :: b :: rest) = .utf8 false := by
  match rest with
  | [] => simp only [Encoding.ofZeros, if_neg ha, if_neg hb]
  | [_] => rfl
  | _ :: _ :: _ => simp only [Encoding.ofZeros, if_neg ha, if_neg hb]

theorem detect_singleton {a : UInt8} (ha : a ≠ 0) (hascii : a.toNat < 0x80) :
    Encoding.detect [a] = .utf8 false := by
  rw [Encoding.detect, ofMark?_eq_none ha hascii, Option.getD_none]
  rfl

/-- Octets of a text that starts with two code points that are not zero are taken for UTF-8, however many
of them are left. -/
theorem detect_of_isPrefix {c d : CodePoint} (hc : c.isAscii) (hc0 : c ≠ 0) (hd : d ≠ 0) {t : Text}
    {p : Bytes} (h : p <+: encodeAny (c :: d :: t)) : Encoding.detect p = .utf8 false := by
  have hval : c.val < 0x80 := by rwa [CodePoint.isAscii, decide_eq_true_eq] at hc
  have hnum : (UInt8.ofNat c.val).toNat = c.val := toNat_octet (by omega)
  have hfirst : UInt8.ofNat c.val ≠ 0 := by
    intro heq
    exact hc0 (Fin.ext ((octet_eq_iff (by omega) 0).mp heq))
  obtain ⟨b, rest, hb, hb0⟩ := exists_encodeOne_cons hd
  have hoctets : encodeAny (c :: d :: t) = UInt8.ofNat c.val :: b :: (rest ++ encodeAny t) := by
    rw [encodeAny, List.flatMap_cons, List.flatMap_cons, encodeOne_of_isAscii hc, hb]
    rfl
  rw [hoctets] at h
  rcases List.prefix_cons_iff.mp h with rfl | ⟨q, rfl, hq⟩
  · rfl
  rcases List.prefix_cons_iff.mp hq with rfl | ⟨r, rfl, _⟩
  · exact detect_singleton hfirst (by omega)
  · rw [Encoding.detect, ofMark?_eq_none hfirst (by omega), Option.getD_none, ofZeros_eq_utf8 hfirst hb0]

end CanonStore.Utf8
