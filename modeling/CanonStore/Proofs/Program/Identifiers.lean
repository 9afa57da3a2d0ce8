import CanonStore.Proofs.CommandLine.Count
import CanonStore.Proofs.Identifier.Source
import CanonStore.Proofs.Program.Frame

/-!
# Identifiers printed by runs

A run that is asked for identifiers takes the octets of its source sixteen at a time, in order. It prints one
identifier for each sixteen octets until there are as many as asked for, or less than sixteen octets are left
(`printIdentifiers_out`). The exit code says which of the two it was. Main statement: `run_identifiers`.
-/

namespace CanonStore

open Identifier (size)

/-! ## Octets sixteen at a time -/

namespace Entropy

variable {e : Entropy} {count : Nat}

/-- The octets that an identifier with an index is made of. -/
def block (e : Entropy) (i : Nat) : Bytes := (e.octets.drop (size * i)).take size

/-- The identifiers that there are octets for, at most as many as asked for. -/
def identifiers (e : Entropy) (count : Nat) : List Text :=
  (List.range (min count (e.octets.length / size))).map fun i => Identifier.ofEntropy (e.block i)

theorem length_identifiers (e : Entropy) (count : Nat) :
    (e.identifiers count).length = min count (e.octets.length / size) := by
  simp [identifiers]

theorem getElem?_identifiers_eq_some_iff {i : Nat} {t : Text} :
    (e.identifiers count)[i]? = some t ↔
      i < min count (e.octets.length / size) ∧ Identifier.ofEntropy (e.block i) = t := by
  simp [identifiers, List.getElem?_eq_some_iff]

theorem length_block {i : Nat} (h : i < e.octets.length / size) : (e.block i).length = size := by
  have hle : size * (i + 1) ≤ e.octets.length :=
    (Nat.mul_le_mul_left size h).trans (Nat.mul_div_le e.octets.length size)
  rw [block, List.length_take, List.length_drop]
  rw [Nat.mul_succ] at hle
  omega

theorem identifiers_of_lt (h : e.octets.length < size) (count : Nat) : e.identifiers count = [] := by
  rw [identifiers, Nat.div_eq_of_lt h, Nat.min_zero]
  rfl

theorem identifiers_succ_of_le (h : size ≤ e.octets.length) (count : Nat) :
    e.identifiers (count + 1) =
      Identifier.ofEntropy (e.octets.take size) :: e.afterOne.identifiers count := by
  have hdiv : e.octets.length / size = e.afterOne.octets.length / size + 1 := by
    rw [afterOne, List.length_drop, ← Nat.div_eq_sub_div (by decide) h]
  have hblock : ∀ i, e.block (i + 1) = e.afterOne.block i := by
    intro i
    rw [block, block, afterOne, List.drop_drop, Nat.mul_succ, Nat.add_comm]
  rw [identifiers, hdiv, Nat.add_min_add_right, List.range_succ_eq_map, List.map_cons, List.map_map]
  refine congrArg (_ :: ·) (List.map_congr_left fun i _ => ?_)
  exact congrArg Identifier.ofEntropy (hblock i)

/-- The identifiers are as many as asked for if there are octets for all of them. -/
theorem length_identifiers_eq_iff : (e.identifiers count).length = count ↔ e.Suffices count := by
  rw [length_identifiers, Suffices, min_eq_left_iff, Nat.le_div_iff_mul_le (by decide), Nat.mul_comm]

end Entropy

namespace Program

variable {wording : Wording} {c : Config} {w : World}

/-! ## What is printed -/

/-- What is printed and what is left of the octets, after any number of identifiers. -/
theorem printIdentifiers_out (count : Nat) (w : World) :
    (printIdentifiers count w).out = (w.entropy.identifiers count).flatMap line ∧
      (printIdentifiers count w).world.entropy = ⟨w.entropy.octets.drop (size * count), w.entropy.whenDry⟩ := by
  induction count generalizing w with
  | zero =>
    rw [Entropy.identifiers, Nat.zero_min]
    exact ⟨rfl, rfl⟩
  | succ count ih =>
    rcases Nat.lt_or_ge w.entropy.octets.length size with hlt | hle
    · -- What is left of the octets is used up by the attempt that fails.
      have hempty : w.entropy.octets.drop (size * (count + 1)) = [] := by
        apply List.drop_eq_nil_of_le
        rw [Nat.mul_succ]
        omega
      obtain ⟨_, hfailed⟩ := printIdentifiers_succ_of_lt hlt count
      rw [hfailed, Entropy.identifiers_of_lt hlt, hempty]
      exact ⟨rfl, rfl⟩
    · have hdrop : w.entropy.afterOne.octets.drop (size * count) = w.entropy.octets.drop (size * (count + 1)) := by
        rw [Entropy.afterOne, List.drop_drop, Nat.mul_succ, Nat.add_comm]
      obtain ⟨hout, hleft⟩ := ih { w with entropy := w.entropy.afterOne }
      rw [printIdentifiers_succ_of_le hle, Entropy.identifiers_succ_of_le hle, List.flatMap_cons, ← hdrop]
      exact ⟨congrArg (_ ++ ·) hout, hleft⟩

/-! ## Runs -/

/-- A run that comes to make identifiers, as the making of identifiers leaves it. -/
theorem run_of_performed_identifiers {arguments : List Text} {count : Int}
    (hperformed : performed? arguments w = some (c, .identifiers count)) (hlog : LogOpens w.files c.logFile)
    (hcount : 1 ≤ count) (wording : Wording) :
    ∃ files, let o := printIdentifiers count.toNat { w with files }
      (run wording arguments w).result = (conclude wording c o.result).1 ∧
        (run wording arguments w).out = o.out ∧ (run wording arguments w).world.entropy = o.world.entropy := by
  obtain ⟨level?, hrun⟩ := run_of_performed hperformed wording
  obtain ⟨⟨handle?, files⟩, hopened⟩ := (exists_openLog_iff _ _).mpr hlog
  have hexecute : execute wording c { w with files } (.identifiers count) =
      printIdentifiers count.toNat { w with files } := by
    rw [execute, identifiers, if_neg (Int.not_lt.mpr hcount)]
  refine ⟨files, ?_⟩
  rw [hrun, perform, hopened]
  dsimp only
  rw [hexecute]
  exact ⟨rfl, rfl, rfl⟩

/-- The exit code of a run tells whether there were octets for all identifiers. -/
theorem conclude_printIdentifiers (hdry : w.entropy.FailsOpenly) (count : Nat) :
    (conclude wording c (printIdentifiers count w).result).1 =
      .ok (if (w.entropy.identifiers count).length = count then .success else .fatal) := by
  obtain ⟨henough, hshort⟩ := printIdentifiers_result count w
  by_cases h : w.entropy.Suffices count
  · rw [henough h, if_pos (Entropy.length_identifiers_eq_iff.mpr h)]
    rfl
  · rw [hshort h, if_neg (mt Entropy.length_identifiers_eq_iff.mp h)]
    apply conclude_eq_ok_iff.mpr
    exact .inr ⟨_, rfl, (exitCode?_shortage w.entropy).1 hdry⟩

/-- A run that is asked for a number of identifiers prints those that there are octets for, at most as many. Each
is a line of its own, made of the next sixteen octets. If there were enough octets the run succeeds; otherwise it
ends with the exit code of fatal faults, and no octets are left. -/
theorem run_identifiers (hload : (loadConfig none w).1 = .ok c) (hlog : LogOpens w.files c.logFile)
    {kind : SystemKind} {message : Text} (hdry : w.entropy.whenDry = .plain (.system kind) message) {n : Nat}
    (hn : 1 ≤ n) (hdigits : n < 10 ^ Text.maxDigits) (wording : Wording) :
    ∃ ids : List Text, ids.length = min n (w.entropy.octets.length / 16) ∧
      (∀ i t, ids[i]? = some t → ∃ d : Bytes, d = (w.entropy.octets.drop (16 * i)).take 16 ∧ d.length = 16 ∧
        Identifier.issue (.ok d) = .ok t ∧ ∀ ch ∈ t, ch ≠ '\n') ∧
      (run wording ["uuid", "-n", Numeral.ofNat n] w).out = ids.flatMap line ∧
      (run wording ["uuid", "-n", Numeral.ofNat n] w).world.entropy.octets = w.entropy.octets.drop (16 * n) ∧
      (run wording ["uuid", "-n", Numeral.ofNat n] w).result =
        .ok (if ids.length = n then .success else .fatal) := by
  -- The numeral is read back as the number, if it is short enough to be read at all.
  have hread : Invocation.read ["uuid", "-n", Numeral.ofNat n] = .ok ⟨none, none, some (.identifiers n)⟩ := by
    rw [Invocation.read_identifiers_ofNat, if_pos hdigits]
  have hperformed := performed?_eq_some_iff.mpr ⟨_, hread, rfl, hload⟩
  obtain ⟨files, hresult, hout, hleft⟩ :=
    run_of_performed_identifiers hperformed hlog (Int.ofNat_le.mpr hn) wording
  obtain ⟨hprinted, hrest⟩ := printIdentifiers_out n { w with files }
  have hfails : w.entropy.FailsOpenly := by
    rw [Entropy.FailsOpenly, hdry]
    exact .inr ⟨rfl, rfl⟩
  refine ⟨w.entropy.identifiers n, w.entropy.length_identifiers n, ?_, hout.trans hprinted,
    congrArg Entropy.octets (hleft.trans hrest),
    hresult.trans (conclude_printIdentifiers (w := { w with files }) hfails n)⟩
  intro i t ht
  obtain ⟨hi, rfl⟩ := Entropy.getElem?_identifiers_eq_some_iff.mp ht
  have hblock := Entropy.length_block (Nat.lt_of_lt_of_le hi (Nat.min_le_right _ _))
  exact ⟨w.entropy.block i, rfl, hblock, Identifier.issue_of_length hblock, Identifier.ne_lineFeed_ofEntropy hblock⟩

/-- Three identifiers are asked for, and there are octets for two and three octets more. -/
theorem run_identifiers_thirtyFive :
    ∃ w : World, w = ⟨.fresh ["work"] 0o022, .empty,
        ⟨List.replicate 16 0 ++ List.replicate 16 0xFF ++ [1, 2, 3], .plain (.system .other) "dry"⟩, 0⟩ ∧
      ∀ wording,
        (run wording ["uuid", "-n", "3"] w).out =
          line "00000000-0000-4000-8000-000000000000" ++ line "ffffffff-ffff-4fff-bfff-ffffffffffff" ∧
        (run wording ["uuid", "-n", "3"] w).world.entropy.octets = [] ∧
        (run wording ["uuid", "-n", "3"] w).result = .ok .fatal := by
  have hthree : Numeral.ofNat 3 = Text.ofString "3" := by
    rw [Numeral.ofNat, Numeral.digits]
    rfl
  have hdigits : 3 < 10 ^ Text.maxDigits :=
    Nat.lt_of_lt_of_le (by decide : 3 < 10 ^ 1) (Nat.pow_le_pow_right (by decide) (by decide))
  refine ⟨_, rfl, fun wording => ?_⟩
  obtain ⟨ids, hlength, hmade, hout, hleft, hresult⟩ :=
    run_identifiers (w := ⟨.fresh ["work"] 0o022, .empty,
        ⟨List.replicate 16 0 ++ List.replicate 16 0xFF ++ [1, 2, 3], .plain (.system .other) "dry"⟩, 0⟩)
      (starts_standard (i := ⟨none, none, none⟩) rfl rfl).config (.inl rfl) rfl (by decide) hdigits wording
  obtain ⟨s, t, rfl⟩ := List.length_eq_two.mp hlength
  obtain ⟨_, rfl, _, hs, _⟩ := hmade 0 s rfl
  obtain ⟨_, rfl, _, ht, _⟩ := hmade 1 t rfl
  obtain rfl := Except.ok.inj hs
  obtain rfl := Except.ok.inj ht
  rw [hthree] at hout hleft hresult
  exact ⟨hout, hleft, hresult⟩

/-- A count of so many digits is taken for no count. -/
theorem run_identifiers_oversized :
    ∃ (n : Nat) (w : World), n = 10 ^ Text.maxDigits ∧
      w = ⟨.fresh ["work"] 0o022, .empty, ⟨[], .plain (.system .other) "dry"⟩, 0⟩ ∧ 1 ≤ n ∧
      ∀ wording, (run wording ["uuid", "-n", Numeral.ofNat n] w).result = .ok .misuse ∧
        (run wording ["uuid", "-n", Numeral.ofNat n] w).result ≠
          .ok (if min n (w.entropy.octets.length / 16) = n then .success else .fatal) := by
  refine ⟨_, _, rfl, rfl, Nat.pow_pos (by decide), fun wording => ?_⟩
  have hread := Invocation.read_identifiers_ofNat (10 ^ Text.maxDigits)
  rw [if_neg (Nat.lt_irrefl _)] at hread
  have hmisuse : (run wording ["uuid", "-n", Numeral.ofNat (10 ^ Text.maxDigits)]
      ⟨.fresh ["work"] 0o022, .empty, ⟨[], .plain (.system .other) "dry"⟩, 0⟩).result = .ok .misuse := by
    rw [run, hread]
  refine ⟨hmisuse, ?_⟩
  rw [hmisuse]
  intro h
  split at h
  · cases h
  · cases h

end Program

end CanonStore
