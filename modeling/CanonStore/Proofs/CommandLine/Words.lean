import CanonStore.Command
import CanonStore.Proofs.Parts

/-!
# Reading words

A word that does not start with a hyphen is an operand, and a command takes all words after it as they were
written (`readWords_command`). So a command line is read as the command that its first operand names does its own
words, under the configuration file that a word in front may name (`Invocation.read_command`).
-/

namespace CanonStore

namespace CommandLine

variable {σ ρ : Type} {g : Grammar σ ρ} {t : Text}

/-! ## Telling words apart -/

/-- A word is an operand if it does not start with a hyphen. -/
theorem Word.classify_of_head? (h : t.head? ≠ some 0x2D) : Word.classify g t = .ok (.operand t) := by
  unfold classify
  split
  · rfl
  · rfl
  · next first second rest =>
    rw [if_pos]
    simpa using h

theorem Word.classifyAll_cons_of_head? (h : t.head? ≠ some 0x2D) (rest : List Text) :
    Word.classifyAll g (t :: rest) = (Word.classifyAll g rest).map (.operand t :: ·) := by
  have hdivider : t ≠ dividerText := by
    rintro rfl
    exact h rfl
  rw [classifyAll, if_neg hdivider, classify_of_head? h]
  cases Word.classifyAll g rest <;> rfl

theorem Word.classifyAll_of_head? (h : t.head? ≠ some 0x2D) : Word.classifyAll g [t] = .ok [.operand t] :=
  classifyAll_cons_of_head? h []

theorem Word.text_of_classify {w : Word σ} (h : Word.classify g t = .ok w) : w.text = t := by
  unfold classify at h
  split at h
  · cases h
    rfl
  · cases h
    rfl
  · split at h
    · cases h
      rfl
    · split at h
      · cases h
        rfl
      · split at h
        · cases h
          rfl
        · split at h
          · cases h
            rfl
          · cases h
          · split at h <;> cases h <;> rfl

/-- Telling words apart loses none of them. -/
theorem Word.map_text_of_classifyAll {arguments : List Text} {ws : List (Word σ)}
    (h : Word.classifyAll g arguments = .ok ws) : ws.map Word.text = arguments := by
  induction arguments generalizing ws with
  | nil =>
    cases h
    rfl
  | cons t rest ih =>
    rw [classifyAll] at h
    split at h
    · next hdivider =>
      cases h
      rw [hdivider, List.map_cons, List.map_map]
      exact congrArg (dividerText :: ·) (List.map_id rest)
    · obtain ⟨w, hw, h⟩ := bind_eq_ok_iff.mp h
      obtain ⟨rest', hrest, h⟩ := bind_eq_ok_iff.mp h
      cases h
      rw [List.map_cons, text_of_classify hw, ih hrest]

/-! ## Reading -/

/-- An option that takes a value takes it from the next word. -/
theorem readWords_option_value (p : Progress σ) (text name value : Text) (names : List Text)
    (effect : σ → Text → Except Stop σ) :
    readWords g p [.option text ⟨name, ⟨names, .withValue effect⟩, none⟩, .operand value] =
      (effect p.draft value).map fun s => { p.leave [] with draft := s } := by
  rw [readWords]
  show (p.withOptions [(⟨names, .withValue effect⟩, value)] [] >>= Except.ok) = _
  show ((effect p.draft value >>= Except.ok).map _ >>= Except.ok) = _
  cases effect p.draft value with
  | error stop => rfl
  | ok s => rfl

/-- A command takes all words after it. -/
theorem readWords_command {effect : σ → Text → List Text → Except Stop (σ × List Text)}
    (hcommand : g.operand = .command effect) {p : Progress σ} (hnone : p.operandGiven = false) (t : Text)
    (rest : List (Word σ)) :
    readWords g p (.operand t :: rest) =
      (effect p.draft t (rest.map Word.text)).map fun r => ⟨r.1, true, false, p.leftOver ++ r.2⟩ := by
  rw [readWords, hnone, hcommand]

/-- A level that starts with a command is read as the command does its words. -/
theorem readSome_command {effect : σ → Text → List Text → Except Stop (σ × List Text)}
    (hcommand : g.operand = .command effect) (ht : t.head? ≠ some 0x2D) {arguments : List Text}
    {ws : List (Word σ)} (hwords : Word.classifyAll g arguments = .ok ws) :
    g.readSome (t :: arguments) =
      effect g.blank t arguments >>= fun r => g.finish r.1 >>= fun result => .ok (result, r.2) := by
  rw [Grammar.readSome, Word.classifyAll_cons_of_head? ht, hwords]
  show readWords g (.start g.blank) (.operand t :: ws) >>= _ = _
  rw [readWords_command hcommand rfl, Word.map_text_of_classifyAll hwords]
  show Except.map _ (effect g.blank t arguments) >>= _ = _
  cases effect g.blank t arguments with
  | error stop => rfl
  | ok r => rfl

end CommandLine

namespace Invocation

open CommandLine

variable {name : Text} {arguments : List Text} {ws : List (Word Invocation)}

/-- The words in front of a command that name a configuration file, whatever its path. -/
def configWords (configPath : Option Text) : List Text :=
  configPath.toList.map fun path => "--config=" ++ path

theorem classify_configWord (path : Text) :
    Word.classify grammar ("--config=" ++ path) =
      .ok (.option ("--config=" ++ path) ⟨"--config", ⟨["--config", "-c"],
        .withValue fun i path => .ok { i with configPath := some path }⟩, some ⟨true, path⟩⟩) := rfl

/-- A command line is read as the command in it does its words, under the configuration file in front. -/
theorem read_command (hname : name.head? ≠ some 0x2D) (hwords : Word.classifyAll grammar arguments = .ok ws)
    {command : Command} (hcommand : readCommand name arguments = .ok (some command, []))
    (configPath : Option Text) :
    read (configWords configPath ++ name :: arguments) = .ok ⟨configPath, none, some command⟩ := by
  have hafter : ∀ i : Invocation, readWords grammar (.start i) (.operand name :: ws) =
      .ok ⟨{ i with command := some command }, true, false, []⟩ := by
    intro i
    rw [readWords_command rfl rfl, Word.map_text_of_classifyAll hwords]
    show Except.map _ (Except.map _ (readCommand name arguments)) = _
    rw [hcommand]
    rfl
  rw [read, Grammar.read, Grammar.readSome]
  cases configPath with
  | none =>
    have hnone : configWords none ++ name :: arguments = name :: arguments := rfl
    rw [hnone, Word.classifyAll_cons_of_head? hname, hwords]
    show ((readWords grammar (.start grammar.blank) (.operand name :: ws) >>= _) >>= _) = _
    rw [hafter]
    rfl
  | some path =>
    have hword : configWords (some path) ++ name :: arguments = ("--config=" ++ path) :: name :: arguments := rfl
    have hdivider : ("--config=" ++ path : Text) ≠ Word.dividerText := nofun
    rw [hword, Word.classifyAll, if_neg hdivider, classify_configWord, Word.classifyAll_cons_of_head? hname, hwords]
    show ((readWords grammar (.start ⟨some path, none, none⟩) (.operand name :: ws) >>= _) >>= _) = _
    rw [hafter]
    rfl

end Invocation

end CanonStore
