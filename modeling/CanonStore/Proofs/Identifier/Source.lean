import CanonStore.Fault.Arguments
import CanonStore.Identifier.Source
import CanonStore.Proofs.Identifier.Shape
import CanonStore.Proofs.Json.Reading

/-!
# Identifiers drawn from a source

The source that a caller gives is asked once, for sixteen octets, if it counts as true; otherwise it is passed over
and that of the system is asked. The identifier shows the octets with six bits overwritten; a source that fails, or
answers with another number of octets, is reported, if what it fails with can be shown (`issueWith_identifies`). A
text is well-formed exactly if some source lets it be issued, a line feed at its end aside
(`isWellFormed_iff_issued`).
-/

namespace CanonStore.Identifier

variable {σ τ ε : Type} {r s : Bytes} {t : Text}

/-! ## Sources -/

/-- The source, with a list of what it was asked for. -/
def Source.noting (source : Source σ ε) : Source (σ × List Nat) ε := fun count s =>
  let (answer, s') := source count s.1
  (answer, s', s.2 ++ [count])

/-- The source, which leaves such a list as it is. -/
def Source.silent (source : Source σ ε) : Source (σ × List Nat) ε := fun count s =>
  let (answer, s') := source count s.1
  (answer, s', s.2)

def GivenSource.noting (given : GivenSource σ) : GivenSource (σ × List Nat) where
  ask := given.ask.noting
  isTrue s := given.isTrue s.1

/-- The source that always has the same answer. -/
def Source.always (answer : Except ε Bytes) : Source Unit ε := fun _ s => (answer, s)

/-- A source that counts as true. -/
def Source.given (source : Source σ CanonStore.Fault) : GivenSource σ := ⟨source, fun _ => true⟩

/-- Too few octets, too many of them, or a failure that sources of random octets are known for. -/
inductive FallsShort : Except CanonStore.Fault Bytes → Prop
  | size (d : Bytes) (h : d.length ≠ 16) : FallsShort (.ok d)
  | system {fault kind} (h : fault.kind? = some (.system kind)) : FallsShort (.error fault)
  | notImplemented {fault} (h : fault.kind? = some .notImplemented) : FallsShort (.error fault)

/-! ## What an identifier shows -/

/-- The text is an identifier of random octets: it shows these with the fixed bits in their places. -/
structure Identifies (r : Bytes) (t : Text) : Prop where
  length_eq : t.length = 36
  not_upper : ∀ c ∈ t, c.isUpper = false
  wellFormed : isWellFormed t = true
  shows_bits : ∃ m : Bytes, m.length = 16 ∧ IsGrouped (Hex.encode m) t ∧
    ∀ p, bit m p = (fixedBit? p).getD (bit r p)

theorem identifies_ofEntropy (hr : r.length = size) : Identifies r (ofEntropy r) := by
  have hm : (mark r).length = size := (length_mark r).trans hr
  have hgrouped : IsGrouped (Hex.encode (mark r)) (ofEntropy r) := isGrouped_format hm
  refine ⟨hgrouped.length_eq, ?_, ?_, mark r, hm, hgrouped, bit_mark hr⟩
  · intro c hc
    rcases mem_format hm c hc with hdigit | rfl
    · simpa using (Bool.and_eq_true_iff.mp hdigit).2
    · rfl
  · exact isWellFormed_iff_exists_format.mpr ⟨mark r, hm, mark_mark hr, .inl rfl⟩

theorem ne_lineFeed_ofEntropy (hr : r.length = size) : ∀ c ∈ ofEntropy r, c ≠ '\n' := by
  rintro _ hc rfl
  rcases mem_format ((length_mark r).trans hr) _ hc with h | h
  · cases h
  · cases h

theorem ofEntropy_inj (hr : r.length = size) (hs : s.length = size) :
    ofEntropy r = ofEntropy s ↔ ∀ p, fixedBit? p = none → bit r p = bit s p := by
  have hm : (mark r).length = size := (length_mark r).trans hr
  have hm' : (mark s).length = size := (length_mark s).trans hs
  rw [ofEntropy, ofEntropy, format_inj hm hm', mark_eq_mark_iff hr hs]

/-! ## What is issued -/

theorem issue_of_length (hr : r.length = size) : issue (.ok r) = .ok (ofEntropy r) := by
  rw [issue, generate, if_pos hr]
  rfl

theorem issue_ok_iff : issue (.ok r) = .ok t ↔ r.length = size ∧ ofEntropy r = t := by
  by_cases hr : r.length = size
  · simp [issue_of_length hr, hr]
  · simp [issue, generate, hr, Except.mapError]

theorem isSourceFailure_of_fallsShort {fault : CanonStore.Fault} (h : FallsShort (.error fault)) :
    isSourceFailure fault = true := by
  cases h with
  | system hkind => rw [isSourceFailure, hkind]
  | notImplemented hkind => rw [isSourceFailure, hkind]

theorem wording_of_ne {fault : CanonStore.Fault} (h : ∀ kind why, fault ≠ .unshown kind why) :
    fault.wording = .ok fault.text := by
  cases fault with
  | unshown kind why => exact absurd rfl (h kind why)
  | _ => rfl

/-- A source that falls short is reported, unless what it fails with cannot be shown. -/
theorem issue_of_fallsShort {answer : Except CanonStore.Fault Bytes} (h : FallsShort answer)
    (hshown : ∀ kind why, answer ≠ .error (.unshown kind why)) :
    ∃ content cause, issue answer = .error (.report .randomSource content cause) ∧
      content.fatal = .bool true ∧ content.retryable = .bool false := by
  cases answer with
  | ok d =>
    cases h with
    | size _ hd =>
      change d.length ≠ size at hd
      rw [issue, generate, if_neg hd]
      exact ⟨_, _, rfl, rfl, rfl⟩
  | error fault =>
    have hwording := wording_of_ne fun kind why heq => hshown kind why (congrArg Except.error heq)
    have hissue : issue (.error fault) = .error (Fault.toFault (.sourceFailed fault)) := rfl
    rw [hissue, Fault.toFault, if_pos (isSourceFailure_of_fallsShort h), hwording]
    exact ⟨_, _, rfl, rfl, rfl⟩

/-- There is no report where the failure cannot be shown: showing it fails instead. -/
theorem issue_of_unshown {kind : FaultKind} {why : DisplayFault} (h : FallsShort (.error (.unshown kind why))) :
    issue (.error (.unshown kind why)) = .error why.toFault := by
  have hissue : issue (.error (.unshown kind why)) = .error (Fault.toFault (.sourceFailed (.unshown kind why))) := rfl
  rw [hissue, Fault.toFault, if_pos (isSourceFailure_of_fallsShort h), Fault.wording]

/-- Whatever else it does, a source is only asked for sixteen octets. -/
theorem issueFrom_fst (source : Source σ CanonStore.Fault) (state : σ) :
    (issueFrom source state).1 = issue (source 16 state).1 := rfl

/-! ## Sources that are given -/

theorem issueWith_of_isTrue {given : GivenSource σ} {state : σ} (h : given.isTrue state = true)
    (system : Source σ CanonStore.Fault) : issueWith (some given) system state = issueFrom given.ask state := by
  rw [issueWith, chosen, h, if_pos rfl]

theorem issueWith_of_not_isTrue {given : GivenSource σ} {state : σ} (h : given.isTrue state = false)
    (system : Source σ CanonStore.Fault) : issueWith (some given) system state = issueFrom system state := by
  rw [issueWith, chosen, h, if_neg Bool.false_ne_true]

/-- A source that is given is asked for sixteen octets once if it counts as true, and not at all if it does
not. -/
theorem issueWith_noting (given : GivenSource σ) (system : Source σ CanonStore.Fault) (state : σ)
    (asked : List Nat) :
    issueWith (some given.noting) system.silent (state, asked) =
      ((issueWith (some given) system state).1, (issueWith (some given) system state).2,
        asked ++ if given.isTrue state then [16] else []) := by
  cases h : given.isTrue state with
  | true =>
    have hnoting : given.noting.isTrue (state, asked) = true := h
    rw [issueWith_of_isTrue hnoting, issueWith_of_isTrue h]
    rfl
  | false =>
    have hnoting : given.noting.isTrue (state, asked) = false := h
    rw [issueWith_of_not_isTrue hnoting, issueWith_of_not_isTrue h, if_neg Bool.false_ne_true, List.append_nil]
    rfl

/-- Sixteen octets of a source make an identifier, the same as other octets exactly if they agree with these on
all but the six fixed bits of the 128. -/
theorem identifies_of_ok {given : GivenSource σ} {state : σ} (h : given.isTrue state = true)
    (system : Source σ CanonStore.Fault) (hanswer : (given.ask 16 state).1 = .ok r) (hr : r.length = 16) :
    ∃ t, (issueWith (some given) system state).1 = .ok t ∧ Identifies r t ∧
      ∀ {τ : Type} (other : GivenSource τ) (system' : Source τ CanonStore.Fault) (state' : τ) (s : Bytes),
        other.isTrue state' = true → (other.ask 16 state').1 = .ok s → s.length = 16 →
        ((issueWith (some other) system' state').1 = .ok t ↔ ∀ p, fixedBit? p = none → bit s p = bit r p) := by
  refine ⟨ofEntropy r, ?_, identifies_ofEntropy hr, ?_⟩
  · rw [issueWith_of_isTrue h, issueFrom_fst, hanswer, issue_of_length hr]
  · intro τ other system' state' s hother hanswer' hs
    -- Another answer gives the same identifier exactly if it differs in bits that are fixed anyway.
    rw [issueWith_of_isTrue hother, issueFrom_fst, hanswer', issue_ok_iff, ofEntropy_inj hs hr]
    exact and_iff_right hs

/-- A pool of octets, which counts as true while it holds any. -/
def pool : GivenSource Bytes where
  ask count octets := (.ok (octets.take count), octets.drop count)
  isTrue octets := !octets.isEmpty

/-- The text is issued when some source returns sixteen octets. -/
def Issued (t : Text) : Prop :=
  ∃ r : Bytes, r.length = 16 ∧ (issueFrom (Source.always (.ok r)) ()).1 = .ok t

theorem issued_iff : Issued t ↔ ∃ m, m.length = size ∧ mark m = m ∧ t = format m := by
  constructor
  · rintro ⟨r, hr, h⟩
    obtain ⟨_, rfl⟩ := issue_ok_iff.mp h
    exact ⟨mark r, (length_mark r).trans hr, mark_mark hr, rfl⟩
  · rintro ⟨m, hm, hmark, rfl⟩
    refine ⟨m, hm, issue_ok_iff.mpr ⟨hm, ?_⟩⟩
    rw [ofEntropy, hmark]

/-- The well-formed texts are the issued ones and these with a line feed behind. -/
theorem isWellFormed_iff_issued (t : Text) : isWellFormed t = true ↔ Issued t ∨ ∃ u, Issued u ∧ t = u ++ "\n" := by
  simp only [isWellFormed_iff_exists_format, issued_iff]
  constructor
  · rintro ⟨m, hm, hmark, ht | ht⟩
    · exact .inl ⟨m, hm, hmark, ht⟩
    · exact .inr ⟨_, ⟨m, hm, hmark, rfl⟩, ht⟩
  · rintro (⟨m, hm, hmark, ht⟩ | ⟨_, ⟨m, hm, hmark, rfl⟩, ht⟩)
    · exact ⟨m, hm, hmark, .inl ht⟩
    · exact ⟨m, hm, hmark, .inr ht⟩

/-- A line feed passes, though no source lets it be issued. -/
theorem isWellFormed_lineFeed_not_issued :
    ∃ t : Text, t = "0123cdef-89ab-4cde-8f01-23456789abcd\n" ∧ isWellFormed t = true ∧ ¬ Issued t := by
  refine ⟨_, rfl, by decide, ?_⟩
  intro h
  obtain ⟨m, hm, _, ht⟩ := issued_iff.mp h
  have hlength := congrArg List.length ht
  rw [(isGrouped_format hm).length_eq] at hlength
  exact absurd hlength (by decide)

end CanonStore.Identifier
