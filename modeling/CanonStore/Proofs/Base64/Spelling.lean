import CanonStore.Proofs.Base64
import Mathlib.Algebra.Group.Nat.Defs

/-!
# The texts that the strict reader takes

What is written is digits of six bits each (`sextets`) and then as many padding signs as complete the last group
(`encode_eq`). The strict reader takes it back, but it takes other texts as well: it looks neither at the bits
of the last digit that belong to no octet, nor at padding behind a group that needs none. A `Spelling` says what
a text makes of this freedom, and there is no other (`decode_eq_ok_iff_exists`). Main statement:
`decode_eq_ok_iff_spelling`, which also says that octets have one text exactly as far as none of it is used.
-/

namespace CanonStore.Base64

/-! ## Digits -/

/-- A character has the value of the digit that it is. -/
theorem digit_of_value? {c : CodePoint} {v : Nat} (h : standard.value? c = some v) :
    v < 64 ∧ standard.digit v = c := by
  have hval : ∀ n, c.val = n → CodePoint.ofNat n = c := by
    rintro _ rfl
    exact Fin.ofNat_val_eq_self c
  -- The cases are the ranges of the alphabet, in the order in which both functions go through them.
  unfold Alphabet.value? at h
  split at h
  · next hupper =>
    simp only [CodePoint.isUpper, Bool.and_eq_true, decide_eq_true_eq] at hupper
    cases h
    refine ⟨by omega, ?_⟩
    rw [Alphabet.digit, if_pos (by omega)]
    exact hval _ (by omega)
  split at h
  · next hlower =>
    simp only [CodePoint.isLower, Bool.and_eq_true, decide_eq_true_eq] at hlower
    cases h
    refine ⟨by omega, ?_⟩
    rw [Alphabet.digit, if_neg (by omega), if_pos (by omega)]
    exact hval _ (by omega)
  split at h
  · next hdigit =>
    simp only [CodePoint.isDigit, Bool.and_eq_true, decide_eq_true_eq] at hdigit
    cases h
    refine ⟨by omega, ?_⟩
    rw [Alphabet.digit, if_neg (by omega), if_neg (by omega), if_pos (by omega)]
    exact hval _ (by omega)
  split at h
  · next hplus =>
    cases h
    exact ⟨by decide, hplus.symm⟩
  split at h
  · next hslash =>
    cases h
    exact ⟨by decide, hslash.symm⟩
  · cases h

/-- Values as digits of the standard alphabet. -/
def digitsOf (vs : List Nat) : Text := vs.map standard.digit

theorem ne_pad_of_mem_digitsOf {vs : List Nat} (hvs : ∀ v ∈ vs, v < 64) : ∀ c ∈ digitsOf vs, c ≠ pad := by
  intro c hc
  obtain ⟨v, hv, rfl⟩ := List.mem_map.mp hc
  exact lawful_standard.digit_ne_pad v (hvs v hv)

theorem isAscii_of_mem_digitsOf {vs : List Nat} (hvs : ∀ v ∈ vs, v < 64) :
    ∀ c ∈ digitsOf vs, c.isAscii = true := by
  have hascii : ∀ v < 64, (standard.digit v).isAscii = true := by decide
  intro c hc
  obtain ⟨v, hv, rfl⟩ := List.mem_map.mp hc
  exact hascii v (hvs v hv)

/-- No two sequences of sextets have the same digits. -/
theorem digitsOf_injective {vs ws : List Nat} (hvs : ∀ v ∈ vs, v < 64) (hws : ∀ v ∈ ws, v < 64)
    (h : digitsOf vs = digitsOf ws) : vs = ws := by
  have hread : ∀ us : List Nat, (∀ v ∈ us, v < 64) → (digitsOf us).map standard.value? = us.map some := by
    intro us hus
    rw [digitsOf, List.map_map]
    apply List.map_congr_left
    intro v hv
    exact lawful_standard.value?_digit v (hus v hv)
  have hsome : vs.map some = ws.map some := by rw [← hread vs hvs, ← hread ws hws, h]
  exact (List.map_inj_right fun _ _ => Option.some.inj).mp hsome

/-! ## What is written -/

/-- Octets in groups of six bits. A number fills the bits of the last group that belong to no octet. -/
def sextets (spare : Nat) : Bytes → List Nat
  | [] => []
  | [x] => [x.toNat / 4, x.toNat % 4 * 16 + spare]
  | [x, y] => [x.toNat / 4, x.toNat % 4 * 16 + y.toNat / 16, y.toNat % 16 * 4 + spare]
  | x :: y :: z :: rest =>
    x.toNat / 4 :: (x.toNat % 4 * 16 + y.toNat / 16) :: (y.toNat % 16 * 4 + z.toNat / 64) ::
      z.toNat % 64 :: sextets spare rest

/-- How many padding signs octets are written with. Each stands for two bits of the last digit that belong to
no octet. -/
def padCount (d : Bytes) : Nat := (3 - d.length % 3) % 3

theorem padCount_lt (d : Bytes) : padCount d < 3 := Nat.mod_lt _ (by decide)

theorem padCount_cons (x y z : UInt8) (rest : Bytes) : padCount (x :: y :: z :: rest) = padCount rest := by
  simp only [padCount, List.length_cons]
  omega

/-- What is written are the digits of the sextets, filled up with padding. -/
theorem encode_eq (d : Bytes) : encode d = digitsOf (sextets 0 d) ++ List.replicate (padCount d) pad := by
  unfold encode
  induction d using encodeWith.induct with
  | case1 => rfl
  | case2 x => rfl
  | case3 x y => rfl
  | case4 x y z rest ih =>
    rw [encodeWith, ih, padCount_cons]
    rfl

/-- Sextets and padding come in groups of four, one for every three octets that are begun. -/
theorem length_sextets (spare : Nat) (d : Bytes) :
    (sextets spare d).length + padCount d = 4 * ((d.length + 2) / 3) := by
  induction d using encodeWith.induct with
  | case1 => rfl
  | case2 x => simp [sextets, padCount]
  | case3 x y => simp [sextets, padCount]
  | case4 x y z rest ih =>
    simp only [sextets, padCount_cons, List.length_cons]
    omega

theorem sextets_lt {spare : Nat} {d : Bytes} (hspare : spare < 4 ^ padCount d) : ∀ v ∈ sextets spare d, v < 64 := by
  -- Only the last digit of an open group takes spare bits, and it has room for as many as its padding
  -- leaves.
  induction d using encodeWith.induct with
  | case1 => exact List.forall_mem_nil _
  | case2 x =>
    have hx : x.toNat < 256 := x.toNat_lt
    have hbits : spare < 16 := hspare
    simp only [sextets, List.forall_mem_cons]
    exact ⟨by omega, by omega, List.forall_mem_nil _⟩
  | case3 x y =>
    have hx : x.toNat < 256 := x.toNat_lt
    have hy : y.toNat < 256 := y.toNat_lt
    have hbits : spare < 4 := hspare
    simp only [sextets, List.forall_mem_cons]
    exact ⟨by omega, by omega, by omega, List.forall_mem_nil _⟩
  | case4 x y z rest ih =>
    have hx : x.toNat < 256 := x.toNat_lt
    have hy : y.toNat < 256 := y.toNat_lt
    have hz : z.toNat < 256 := z.toNat_lt
    rw [padCount_cons] at hspare
    simp only [sextets, List.forall_mem_cons]
    exact ⟨by omega, by omega, by omega, by omega, ih hspare⟩

/-- The bits of the last group are those that they were filled with. -/
theorem sextets_injective {spare other : Nat} {d : Bytes} (hspare : spare < 4 ^ padCount d)
    (hother : other < 4 ^ padCount d) (h : sextets spare d = sextets other d) : spare = other := by
  induction d using encodeWith.induct with
  | case1 =>
    have hspare : spare < 1 := hspare
    have hother : other < 1 := hother
    omega
  | case2 x =>
    simp only [sextets, List.cons.injEq, and_true, true_and] at h
    omega
  | case3 x y =>
    simp only [sextets, List.cons.injEq, and_true, true_and] at h
    omega
  | case4 x y z rest ih =>
    rw [padCount_cons] at hspare hother
    simp only [sextets, List.cons.injEq, true_and] at h
    exact ih hspare hother h

/-- Digits come from octets, unless a single one is left in the last group. -/
theorem exists_sextets {vs : List Nat} (hvs : ∀ v ∈ vs, v < 64) (hlength : vs.length % 4 ≠ 1) :
    ∃ (d : Bytes) (spare : Nat), spare < 4 ^ padCount d ∧ sextets spare d = vs := by
  have hoctet : ∀ n < 256, (UInt8.ofNat n).toNat = n := by
    intro n hn
    simp only [UInt8.toNat_ofNat']
    omega
  match vs, hvs, hlength with
  | [], _, _ => exact ⟨[], 0, Nat.one_pos, rfl⟩
  -- One digit alone has too few bits for an octet.
  | [v], _, hlength => exact absurd rfl hlength
  | [v, w], hvs, _ =>
    simp only [List.forall_mem_cons] at hvs
    -- What the digits have beyond whole octets is spare.
    refine ⟨[UInt8.ofNat (v * 4 + w / 16)], w % 16, Nat.mod_lt w (by decide), ?_⟩
    simp only [sextets, hoctet (v * 4 + w / 16) (by omega), List.cons.injEq, and_true]
    omega
  | [u, v, w], hvs, _ =>
    simp only [List.forall_mem_cons] at hvs
    refine ⟨[UInt8.ofNat (u * 4 + v / 16), UInt8.ofNat (v % 16 * 16 + w / 4)], w % 4,
      Nat.mod_lt w (by decide), ?_⟩
    simp only [sextets, hoctet (u * 4 + v / 16) (by omega), hoctet (v % 16 * 16 + w / 4) (by omega),
      List.cons.injEq, and_true]
    omega
  | u :: v :: w :: x :: rest, hvs, hlength =>
    simp only [List.forall_mem_cons] at hvs
    obtain ⟨hu, hv, hw, hx, hrest⟩ := hvs
    have hrestLength : rest.length % 4 ≠ 1 := by
      simp only [List.length_cons] at hlength
      omega
    obtain ⟨d, spare, hspare, rfl⟩ := exists_sextets hrest hrestLength
    refine ⟨UInt8.ofNat (u * 4 + v / 16) :: UInt8.ofNat (v % 16 * 16 + w / 4) ::
      UInt8.ofNat (w % 4 * 64 + x) :: d, spare, by rwa [padCount_cons], ?_⟩
    simp only [sextets, hoctet (u * 4 + v / 16) (by omega), hoctet (v % 16 * 16 + w / 4) (by omega),
      hoctet (w % 4 * 64 + x) (by omega), List.cons.injEq, and_true]
    omega

/-! ## The reader -/

/-- The reader takes digits one by one and counts no padding among them. -/
theorem read_digitsOf {vs : List Nat} (hvs : ∀ v ∈ vs, v < 64) {p : Progress} (hpads : p.pads = 0) (t : Text) :
    read p (digitsOf vs ++ t) = read (vs.foldl Progress.digit p) t ∧ (vs.foldl Progress.digit p).pads = 0 := by
  induction vs generalizing p with
  | nil => exact ⟨rfl, hpads⟩
  | cons v vs ih =>
    obtain ⟨hv, hvs⟩ := List.forall_mem_cons.mp hvs
    have hnext : (p.digit v).pads = 0 := by
      unfold Progress.digit
      split <;> rfl
    rw [List.foldl_cons, digitsOf, List.map_cons, List.cons_append, read,
      if_neg (lawful_standard.digit_ne_pad v hv), lawful_standard.value?_digit v hv]
    simp only [hpads, Nat.lt_irrefl, if_false]
    exact ih hvs hnext

/-- Every digit goes on by one place in the group of four. -/
theorem phase_foldl_digit (vs : List Nat) {p : Progress} (hp : p.phase < 4) :
    (vs.foldl Progress.digit p).phase = (p.phase + vs.length) % 4 := by
  induction vs generalizing p with
  | nil => exact (Nat.mod_eq_of_lt hp).symm
  | cons v vs ih =>
    have hnext : (p.digit v).phase = (p.phase + 1) % 4 := by
      obtain ⟨_, phase, _, _⟩ := p
      match phase, hp with
      | 0, _ | 1, _ | 2, _ | 3, _ => simp [Progress.digit]
    rw [List.foldl_cons, ih (by omega), hnext, List.length_cons]
    omega

/-- Between two groups, the digits of octets complete these octets. -/
theorem done_foldl_sextets (spare : Nat) {d : Bytes} (done : Bytes) (hspare : spare < 4 ^ padCount d) :
    ((sextets spare d).foldl Progress.digit ⟨done, 0, 0, 0⟩).done.reverse = done.reverse ++ d := by
  induction d using encodeWith.induct generalizing done with
  | case1 => exact (List.append_nil _).symm
  | case2 x =>
    have hx : x.toNat < 256 := x.toNat_lt
    have hbits : spare < 16 := hspare
    simp only [sextets, List.foldl_cons, List.foldl_nil, Progress.digit]
    rw [octet_of_eq (x := x) (by omega), List.reverse_cons]
  | case3 x y =>
    have hx : x.toNat < 256 := x.toNat_lt
    have hy : y.toNat < 256 := y.toNat_lt
    have hbits : spare < 4 := hspare
    simp only [sextets, List.foldl_cons, List.foldl_nil, Progress.digit]
    rw [octet_of_eq (x := y) (by omega), octet_of_eq (x := x) (by omega)]
    simp
  | case4 x y z rest ih =>
    have hx : x.toNat < 256 := x.toNat_lt
    have hy : y.toNat < 256 := y.toNat_lt
    have hz : z.toNat < 256 := z.toNat_lt
    -- A full group leaves no bits over, so the rest is read as from the start.
    rw [padCount_cons] at hspare
    simp only [sextets, List.foldl_cons, Progress.digit]
    rw [octet_of_eq (x := z) (by omega), octet_of_eq (x := y) (by omega), octet_of_eq (x := x) (by omega),
      ih _ hspare]
    simp

/-- So much padding completes the last group: what is missing behind two or three digits, and any padding behind
a full group. -/
def Closes (phase pads : Nat) : Prop := phase = 0 ∨ 2 ≤ phase ∧ phase + pads = 4

section Padding

variable {p : Progress} {t : Text} {d : Bytes}

/-- At the end of the text no group may be open. -/
theorem read_nil_eq_ok_iff : read p [] = .ok d ↔ p.phase = 0 ∧ d = p.done.reverse := by
  unfold read
  split
  · next hzero => simp [hzero, eq_comm]
  · next hne => split <;> simp [hne]

/-- Padding closes a group that has enough digits, and nothing may follow it then; otherwise it is counted. -/
theorem read_pad (p : Progress) (t : Text) :
    read p (pad :: t) =
      if 2 ≤ p.phase ∧ 4 ≤ p.phase + (p.pads + 1) then
        if t.isEmpty then .ok p.done.reverse else .error .excessData
      else read { p with pads := p.pads + 1 } t := by
  rw [read, if_pos rfl]
  simp only [Bool.and_eq_true, decide_eq_true_eq]

/-- Only padding may follow a padding sign. -/
theorem read_cons_ne_ok {c : CodePoint} (hc : c ≠ pad) (hpads : 0 < p.pads) : read p (c :: t) ≠ .ok d := by
  rw [read, if_neg hc]
  split
  · nofun
  · rw [if_pos hpads]
    nofun

theorem read_pad_of_complete (hopen : p.phase + p.pads < 4) (hphase : 2 ≤ p.phase)
    (hcomplete : 4 ≤ p.phase + (p.pads + 1)) :
    read p (pad :: t) = .ok d ↔
      ∃ n, t = List.replicate n pad ∧ Closes p.phase (p.pads + 1 + n) ∧ d = p.done.reverse := by
  rw [read_pad, if_pos ⟨hphase, hcomplete⟩]
  constructor
  · intro h
    cases t with
    | nil =>
      cases h
      exact ⟨0, rfl, .inr ⟨hphase, by omega⟩, rfl⟩
    | cons c t => cases h
  · rintro ⟨n, rfl, hcloses, rfl⟩
    have hn : n = 0 := by
      rcases hcloses with hzero | ⟨_, hfour⟩ <;> omega
    subst hn
    rfl

/-- From a padding sign on there is padding to the end, and it completes the group. -/
theorem read_pad_eq_ok_iff (hopen : 2 ≤ p.phase → p.phase + p.pads < 4) :
    read p (pad :: t) = .ok d ↔
      ∃ n, t = List.replicate n pad ∧ Closes p.phase (p.pads + 1 + n) ∧ d = p.done.reverse := by
  induction t generalizing p with
  | nil =>
    by_cases hcomplete : 2 ≤ p.phase ∧ 4 ≤ p.phase + (p.pads + 1)
    · exact read_pad_of_complete (hopen hcomplete.1) hcomplete.1 hcomplete.2
    rw [read_pad, if_neg hcomplete, read_nil_eq_ok_iff]
    constructor
    · rintro ⟨hzero, rfl⟩
      exact ⟨0, rfl, .inl hzero, rfl⟩
    · rintro ⟨n, hn, hcloses, rfl⟩
      obtain rfl : n = 0 := by simpa using hn.symm
      refine ⟨?_, rfl⟩
      rcases hcloses with hzero | hfour
      · exact hzero
      · omega
  | cons c t ih =>
    -- The sign that completes a group ends the text, and it was settled above what may follow it.
    by_cases hcomplete : 2 ≤ p.phase ∧ 4 ≤ p.phase + (p.pads + 1)
    · exact read_pad_of_complete (hopen hcomplete.1) hcomplete.1 hcomplete.2
    rw [read_pad, if_neg hcomplete]
    -- After an open padding sign only another one is read.
    by_cases hc : c = pad
    · subst hc
      rw [ih (p := { p with pads := p.pads + 1 }) (by simp only; omega)]
      constructor
      · rintro ⟨n, rfl, hcloses, rfl⟩
        exact ⟨n + 1, rfl, by rwa [Nat.add_assoc, Nat.add_comm 1] at hcloses, rfl⟩
      · rintro ⟨n, hn, hcloses, rfl⟩
        cases n with
        | zero => cases hn
        | succ n =>
          rw [List.replicate_succ, List.cons.injEq] at hn
          refine ⟨n, hn.2, ?_, rfl⟩
          rwa [Nat.add_assoc, Nat.add_comm 1]
    · refine iff_of_false (read_cons_ne_ok hc (Nat.succ_pos _)) ?_
      rintro ⟨n, hn, _⟩
      exact hc (List.eq_of_mem_replicate (hn ▸ List.mem_cons_self))

/-- Digits and padding can be told apart. -/
theorem digitsOf_append_inj {vs ws : List Nat} (hvs : ∀ v ∈ vs, v < 64) (hws : ∀ v ∈ ws, v < 64) {m n : Nat}
    (h : digitsOf vs ++ List.replicate m pad = digitsOf ws ++ List.replicate n pad) : vs = ws ∧ m = n := by
  have hsplit := congrArg splitPadding h
  rw [splitPadding_append (ne_pad_of_mem_digitsOf hvs), splitPadding_append (ne_pad_of_mem_digitsOf hws)] at hsplit
  obtain ⟨hdigits, hpads⟩ := Prod.mk.inj hsplit
  exact ⟨digitsOf_injective hvs hws hdigits, hpads⟩

/-- Digits, and then padding that completes the last group, are read. -/
theorem read_digitsOf_append {vs : List Nat} (hvs : ∀ v ∈ vs, v < 64) (hpads : p.pads = 0) (hphase : p.phase < 4)
    {n : Nat} (hcloses : Closes ((p.phase + vs.length) % 4) n) :
    read p (digitsOf vs ++ List.replicate n pad) = .ok (vs.foldl Progress.digit p).done.reverse := by
  obtain ⟨hread, hnext⟩ := read_digitsOf hvs hpads (List.replicate n pad)
  rw [← phase_foldl_digit vs hphase] at hcloses
  rw [hread]
  have hlt : (vs.foldl Progress.digit p).phase < 4 := by
    rw [phase_foldl_digit vs hphase]
    exact Nat.mod_lt _ (by decide)
  generalize vs.foldl Progress.digit p = q at hnext hcloses hlt
  cases n with
  | zero =>
    refine read_nil_eq_ok_iff.mpr ⟨?_, rfl⟩
    rcases hcloses with hzero | hfour
    · exact hzero
    · omega
  | succ n =>
    refine (read_pad_eq_ok_iff (by omega)).mpr ⟨n, rfl, ?_, rfl⟩
    rwa [hnext, Nat.zero_add, Nat.add_comm]

/-- Nothing else is read. -/
theorem exists_of_read (hpads : p.pads = 0) (hphase : p.phase < 4) (h : read p t = .ok d) :
    ∃ vs n, (∀ v ∈ vs, v < 64) ∧ t = digitsOf vs ++ List.replicate n pad ∧
      Closes ((p.phase + vs.length) % 4) n ∧ d = (vs.foldl Progress.digit p).done.reverse := by
  -- The invariant is that no padding sign has been met; the first one that is met settles all that follows.
  induction t generalizing p with
  | nil =>
    obtain ⟨hzero, rfl⟩ := read_nil_eq_ok_iff.mp h
    exact ⟨[], 0, List.forall_mem_nil _, rfl, .inl (by simp [hzero]), rfl⟩
  | cons c t ih =>
    by_cases hc : c = pad
    · subst hc
      obtain ⟨n, rfl, hcloses, rfl⟩ := (read_pad_eq_ok_iff (by omega)).mp h
      refine ⟨[], n + 1, List.forall_mem_nil _, rfl, ?_, rfl⟩
      rw [List.length_nil, Nat.add_zero, Nat.mod_eq_of_lt hphase]
      rwa [hpads, Nat.zero_add, Nat.add_comm] at hcloses
    · rw [read, if_neg hc] at h
      split at h
      · cases h
      · next v hv =>
        obtain ⟨hlt, rfl⟩ := digit_of_value? hv
        rw [if_neg (by omega)] at h
        have hnext : (p.digit v).phase = (p.phase + 1) % 4 := phase_foldl_digit [v] hphase
        have hone : ∀ u ∈ [v], u < 64 := List.forall_mem_singleton.mpr hlt
        have hnone : (p.digit v).pads = 0 := (read_digitsOf hone hpads []).2
        obtain ⟨vs, n, hvs, rfl, hcloses, hd⟩ := ih hnone (by omega) h
        refine ⟨v :: vs, n, List.forall_mem_cons.mpr ⟨hlt, hvs⟩, rfl, ?_, hd⟩
        rw [hnext, Nat.mod_add_mod, Nat.add_right_comm] at hcloses
        exact hcloses

end Padding

/-! ## Spellings -/

/-- A way to spell octets: what stands in the bits of the last digit that belong to no octet, and how many
padding signs follow. There may be more of them than needed only if none is needed, and something precedes
them. -/
structure Spelling (d : Bytes) where
  spare : Nat
  pads : Nat
  spare_lt : spare < 4 ^ padCount d
  pads_eq : pads = padCount d ∨ padCount d = 0 ∧ d ≠ []

namespace Spelling

variable {d : Bytes}

def text (s : Spelling d) : Text := digitsOf (sextets s.spare d) ++ List.replicate s.pads pad

/-- How octets are written: with empty bits, and with no more padding than needed. -/
def canonical (d : Bytes) : Spelling d := ⟨0, padCount d, Nat.pow_pos (by decide), .inl rfl⟩

/-- The canonical spelling is what is written. -/
theorem text_canonical (d : Bytes) : (canonical d).text = encode d := (encode_eq d).symm

/-- One text is spelled in one way. -/
theorem text_eq_text_iff (s u : Spelling d) : s.text = u.text ↔ s.spare = u.spare ∧ s.pads = u.pads := by
  constructor
  · intro h
    obtain ⟨hdigits, hpads⟩ := digitsOf_append_inj (sextets_lt s.spare_lt) (sextets_lt u.spare_lt) h
    exact ⟨sextets_injective s.spare_lt u.spare_lt hdigits, hpads⟩
  · rintro ⟨hspare, hpads⟩
    rw [text, text, hspare, hpads]

/-- Every spelling closes its last group. -/
theorem closes (s : Spelling d) : Closes ((sextets s.spare d).length % 4) s.pads := by
  have hlength := length_sextets s.spare d
  have hcount := padCount_lt d
  unfold Closes
  rcases s.pads_eq with hpads | ⟨hnone, _⟩ <;> omega

theorem isAscii_text (s : Spelling d) : ∀ c ∈ s.text, c.isAscii = true := by
  intro c hc
  rcases List.mem_append.mp hc with hdigit | hpad
  · exact isAscii_of_mem_digitsOf (sextets_lt s.spare_lt) c hdigit
  · obtain rfl := List.eq_of_mem_replicate hpad
    rfl

theorem text_of_digitsOf_eq_nil {s : Spelling d} (h : digitsOf (sextets s.spare d) = []) : s.text = [] := by
  have hnone : sextets s.spare d = [] := List.map_eq_nil_iff.mp h
  have hlength := length_sextets s.spare d
  have hcount := padCount_lt d
  rw [hnone, List.length_nil] at hlength
  have hempty : d = [] := List.length_eq_zero_iff.mp (by omega)
  have hpads : s.pads = 0 := by
    rcases s.pads_eq with hpads | ⟨_, hne⟩
    · omega
    · exact absurd hempty hne
  rw [text, h, hpads]
  rfl

/-- No text starts with padding. -/
theorem head?_text (s : Spelling d) : s.text.head? ≠ some pad := by
  have hdigits := ne_pad_of_mem_digitsOf (sextets_lt s.spare_lt)
  cases hd : digitsOf (sextets s.spare d) with
  | nil =>
    rw [text_of_digitsOf_eq_nil hd]
    nofun
  | cons c rest =>
    rw [text, hd, List.cons_append, List.head?_cons]
    intro heq
    exact hdigits c (hd ▸ List.mem_cons_self) (Option.some.inj heq)

end Spelling

/-! ## Strict reading -/

section Reading

variable {t : Text} {d : Bytes}

/-- Every spelling of octets is read as these octets. -/
theorem decode_text (s : Spelling d) : decode s.text = .ok d := by
  have hascii : (s.text.any fun c => !c.isAscii) = false := by
    rw [List.any_eq_false]
    intro c hc
    simp [s.isAscii_text c hc]
  have hread : read .start s.text = .ok _ :=
    read_digitsOf_append (sextets_lt s.spare_lt) rfl (by decide) (by simpa [Progress.start] using s.closes)
  rw [decode, hascii, if_neg Bool.false_ne_true, if_neg s.head?_text, hread]
  exact congrArg _ (done_foldl_sextets s.spare [] s.spare_lt)

/-- The strict reader takes back what is written. -/
theorem decode_encode (d : Bytes) : decode (encode d) = .ok d := by
  rw [← Spelling.text_canonical]
  exact decode_text (.canonical d)

/-- Padding that completes the last group is as a spelling has it, if something precedes it. -/
theorem pads_eq_of_closes {spare n : Nat} (hcloses : Closes ((sextets spare d).length % 4) n)
    (hhead : (digitsOf (sextets spare d) ++ List.replicate n pad).head? ≠ some pad) :
    n = padCount d ∨ padCount d = 0 ∧ d ≠ [] := by
  have hlength := length_sextets spare d
  have hcount := padCount_lt d
  by_cases hempty : d = []
  · subst hempty
    cases n with
    | zero => exact .inl rfl
    | succ n => exact absurd rfl hhead
  · rcases hcloses with hzero | ⟨htwo, hfour⟩
    · exact .inr ⟨by omega, hempty⟩
    · exact .inl (by omega)

/-- A text that is read starts with no padding. -/
theorem decode_eq_ok (h : decode t = .ok d) : t.head? ≠ some pad ∧ read .start t = .ok d := by
  unfold decode at h
  split at h
  · cases h
  split at h
  · cases h
  · next hhead => exact ⟨hhead, h⟩

/-- The texts that the strict reader takes are the spellings of octets. -/
theorem decode_eq_ok_iff_exists : decode t = .ok d ↔ ∃ s : Spelling d, s.text = t := by
  constructor
  · intro h
    obtain ⟨hhead, hread⟩ := decode_eq_ok h
    obtain ⟨vs, n, hvs, rfl, hcloses, hd⟩ := exists_of_read rfl (by decide) hread
    have hphase : Progress.start.phase + vs.length = vs.length := Nat.zero_add _
    rw [hphase] at hcloses
    have hlength : vs.length % 4 ≠ 1 := by
      rcases hcloses with hzero | ⟨htwo, _⟩ <;> omega
    obtain ⟨e, spare, hspare, rfl⟩ := exists_sextets hvs hlength
    -- The digits are those of the octets that were read.
    obtain rfl : d = e := hd.trans (done_foldl_sextets spare [] hspare)
    exact ⟨⟨spare, n, hspare, pads_eq_of_closes hcloses hhead⟩, rfl⟩
  · rintro ⟨s, rfl⟩
    exact decode_text s

/-- The strict reader takes exactly the spellings of octets, each for its octets, and refuses every other text.
A spelling is what is written for the octets exactly if the spare bits are empty and there is no more padding
than needed. -/
theorem decode_eq_ok_iff_spelling (t : Text) :
    (∀ d, decode t = .ok d ↔ ∃ s : Spelling d, s.text = t) ∧
      ((∃ fault, decode t = .error fault) ↔ ¬ ∃ d, ∃ s : Spelling d, s.text = t) ∧
      ∀ d, ∀ s : Spelling d, s.text = encode d ↔ s.spare = 0 ∧ s.pads = padCount d := by
  refine ⟨fun d => decode_eq_ok_iff_exists, ?_, ?_⟩
  · simp only [← decode_eq_ok_iff_exists]
    cases decode t <;> simp
  · intro d s
    rw [← Spelling.text_canonical]
    exact s.text_eq_text_iff (.canonical d)

/-- Padding behind a full group is taken, and so are bits of the last digit that belong to no octet: in both
cases what is read is written otherwise. -/
theorem decode_surplus_ne_encode :
    (decode "AAAA=" = .ok [0, 0, 0] ∧ encode [0, 0, 0] ≠ Text.ofString "AAAA=") ∧
      decode "AB==" = .ok [0] ∧ encode [0] ≠ Text.ofString "AB==" := by
  refine ⟨⟨rfl, ?_⟩, rfl, ?_⟩
  · decide
  · decide

end Reading

end CanonStore.Base64
