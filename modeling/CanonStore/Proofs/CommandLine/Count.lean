import CanonStore.Proofs.CommandLine.Words
import CanonStore.Proofs.Numeral

/-!
# Counts on the command line

An integer is read from the numeral that was written for it unless this has too many digits (`readInt?_ofNat`).
A command line asks for as many identifiers as the numeral on it says (`read_identifiers_ofNat`).
-/

namespace CanonStore

/-! ## Numerals that are typed -/

namespace Text

theorem decimalValue?_digit : ∀ d < 10, (CodePoint.ofNat (0x30 + d)).decimalValue? = some d := by decide

theorem ne_underscore_digit : ∀ d < 10, CodePoint.ofNat (0x30 + d) ≠ 0x5F := by decide

/-- A digit, no underscore after it. -/
theorem digitValues?_cons {c : CodePoint} {d : Nat} (hc : c.decimalValue? = some d) {t : Text} {ds : List Nat}
    (hhead : t.head? ≠ some 0x5F) (ht : digitValues? t = some ds) : digitValues? (c :: t) = some (d :: ds) := by
  cases t with
  | nil => cases ht
  | cons e t =>
    have he : e ≠ 0x5F := by simpa using hhead
    rw [digitValues?]
    · simp [hc, ht]
    · simp
    · rintro rest h 
      exact he (List.cons.inj h).1

theorem digitValues?_digits {ds : List Nat} (hne : ds ≠ []) (h : ∀ d ∈ ds, d < 10) :
    digitValues? (ds.map fun d => CodePoint.ofNat (0x30 + d)) = some ds := by
  induction ds with
  | nil => exact absurd rfl hne
  | cons d ds ih =>
    obtain ⟨hd, hds⟩ := List.forall_mem_cons.mp h
    cases ds with
    | nil => simp [digitValues?, decimalValue?_digit d hd]
    | cons e es =>
      have he : e < 10 := hds e List.mem_cons_self
      refine digitValues?_cons (decimalValue?_digit d hd) ?_ (ih (List.cons_ne_nil e es) hds)
      simpa using ne_underscore_digit e he

theorem digitValues?_ofNat (n : Nat) : digitValues? (Numeral.ofNat n) = some (Numeral.digits n) :=
  digitValues?_digits (Numeral.digits_ne_nil n) (Numeral.digits_lt n)

theorem ofDigitValues_digits (n : Nat) : Numeral.ofDigitValues (Numeral.digits n) = n := by
  rw [Numeral.ofDigitValues, Numeral.digits]
  split
  · simp
  · have ih : Numeral.ofDigitValues (Numeral.digits (n / 10)) = n / 10 := ofDigitValues_digits (n / 10)
    rw [Numeral.ofDigitValues] at ih
    rw [List.foldl_append, ih, List.foldl_cons, List.foldl_nil, Nat.div_add_mod]

/-- A written numeral is read as its number if it does not have too many digits. -/
theorem readDigits?_ofNat (n : Nat) :
    readDigits? (Numeral.ofNat n) = if n < 10 ^ maxDigits then some n else none := by
  have hlength : (Numeral.digits n).length ≤ maxDigits ↔ n < 10 ^ maxDigits := Numeral.length_le_iff (by decide)
  have hread : readDigits? (Numeral.ofNat n) =
      if maxDigits < (Numeral.digits n).length then none
      else some (Numeral.ofDigitValues (Numeral.digits n)) := by
    rw [readDigits?, digitValues?_ofNat]
    rfl
  rw [hread, ofDigitValues_digits]
  by_cases h : n < 10 ^ maxDigits
  · rw [if_pos h, if_neg (Nat.not_lt.mpr (hlength.mpr h))]
  · rw [if_neg h, if_pos (Nat.lt_of_not_le (mt hlength.mp h))]

theorem not_isWhiteSpace_of_isDigit {c : CodePoint} (h : c.isDigit = true) : c.isWhiteSpace = false := by
  simp only [CodePoint.isDigit, Bool.and_eq_true, decide_eq_true_eq] at h
  simp only [CodePoint.isWhiteSpace, Bool.or_eq_false_iff, Bool.and_eq_false_iff, decide_eq_false_iff_not]
  omega

theorem trim_ofNat (n : Nat) : (Numeral.ofNat n).trim = Numeral.ofNat n := by
  have hdrop {t : Text} (h : ∀ c ∈ t, c.isDigit = true) : t.dropWhile CodePoint.isWhiteSpace = t := by
    cases t with
    | nil => rfl
    | cons c t =>
      have hc := not_isWhiteSpace_of_isDigit (h c List.mem_cons_self)
      rw [List.dropWhile_cons_of_neg (by simp [hc])]
  rw [trim, trimBy, hdrop Numeral.isDigit_of_mem_ofNat, hdrop, List.reverse_reverse]
  intro c hc
  exact Numeral.isDigit_of_mem_ofNat c (List.mem_reverse.mp hc)

theorem readInt?_ofNat (n : Nat) :
    readInt? (Numeral.ofNat n) = if n < 10 ^ maxDigits then some (n : Int) else none := by
  obtain ⟨c, t, ht⟩ := List.exists_cons_of_ne_nil (Numeral.ofNat_ne_nil n)
  have hc : c.isDigit = true := Numeral.isDigit_of_mem_ofNat c (ht ▸ List.mem_cons_self)
  -- A numeral starts with a digit, so neither of the signs is taken off.
  have hread : readInt? (Numeral.ofNat n) = (readDigits? (Numeral.ofNat n)).map Int.ofNat := by
    rw [readInt?, trim_ofNat, ht]
    split
    · next h =>
      obtain ⟨rfl, -⟩ := List.cons_eq_cons.mp h
      cases hc
    · next h =>
      obtain ⟨rfl, -⟩ := List.cons_eq_cons.mp h
      cases hc
    · rfl
  rw [hread, readDigits?_ofNat]
  split
  · rfl
  · rfl

end Text

namespace Invocation

open CommandLine

variable {t : Text}

theorem readSome_identifiersGrammar (h : t.head? ≠ some 0x2D) :
    Command.identifiersGrammar.readSome ["-n", t] =
      t.readInt?.elim (.error .misuse) fun count => .ok (.identifiers count, []) := by
  have hwords : Word.classifyAll Command.identifiersGrammar ["-n", t] =
      .ok [.option "-n" ⟨"-n", ⟨["--count", "-n"], .withValue fun _ t => t.readInt?.elim (.error .misuse) .ok⟩, none⟩,
        .operand t] := by
    rw [Word.classifyAll, Word.classifyAll_of_head? h]
    rfl
  rw [Grammar.readSome, hwords]
  show readWords _ _ _ >>= _ = _
  rw [readWords_option_value]
  cases t.readInt? with
  | none => rfl
  | some count => rfl

/-- A command line asks for as many identifiers as its count says. A count that is no integer is refused. -/
theorem read_identifiers (h : t.head? ≠ some 0x2D) :
    read ["uuid", "-n", t] =
      t.readInt?.elim (.error .misuse) fun count => .ok ⟨none, none, some (.identifiers count)⟩ := by
  have hwords : Word.classifyAll grammar ["uuid", "-n", t] =
      .ok [.operand "uuid", .unknown "-n", .operand t] := by
    rw [Word.classifyAll, Word.classifyAll, Word.classifyAll_of_head? h]
    rfl
  have hcommand : readCommand "uuid" ["-n", t] =
      (Command.identifiersGrammar.readSome ["-n", t]).map fun r => (some r.1, r.2) := rfl
  rw [read, Grammar.read, Grammar.readSome, hwords]
  show ((readWords _ _ _ >>= _) >>= _) = _
  rw [readWords_command rfl rfl]
  show (((Except.map _ ((readCommand "uuid" ["-n", t]).map _)) >>= _) >>= _) = _
  rw [hcommand, readSome_identifiersGrammar h]
  cases t.readInt? with
  | none => rfl
  | some count => rfl

theorem head?_ofNat_ne_hyphen (n : Nat) : (Numeral.ofNat n).head? ≠ some 0x2D := by
  intro h
  have hdigit := Numeral.isDigit_of_mem_ofNat _ (List.mem_of_mem_head? h)
  cases hdigit

/-- A number of identifiers can be asked for if it does not have too many digits. -/
theorem read_identifiers_ofNat (n : Nat) :
    read ["uuid", "-n", Numeral.ofNat n] =
      if n < 10 ^ Text.maxDigits then .ok ⟨none, none, some (.identifiers n)⟩ else .error .misuse := by
  rw [read_identifiers (head?_ofNat_ne_hyphen n), Text.readInt?_ofNat]
  split
  · rfl
  · rfl

end Invocation

end CanonStore
