import CanonStore.Proofs.Program.Command
import CanonStore.Proofs.Program.Setup

/-!
# How runs end

A run ends with the exit code of success, of failure or of fatal faults, or with a fault that passes through
it. `World.SuitsRun` collects what the stages of a run need, and `run_exitCode` says that a run ends with an
exit code exactly if the world suits it, and with the one of fatal faults exactly if the source of random
octets failed.
-/

namespace CanonStore

/-- A run gets the configuration and has the files before it when its log is open. -/
structure Program.Starts (i : Invocation) (w : World) (c : Config) (files : FileSystem) : Prop where
  config : (loadConfig i.configPath w).1 = .ok c
  log : ∃ handle?, openLog c.logFile w.files = .ok (handle?, files)

/-- The world holds what all stages of a run need. -/
structure World.SuitsRun (w : World) (i : Invocation) (command : Command) : Prop where
  config : w.SuitsConfig i.configPath
  log : ∀ c, (Program.loadConfig i.configPath w).1 = .ok c → Program.LogOpens w.files c.logFile
  command : ∀ c files, Program.Starts i w c files → { w with files : World }.Suits c command

/-- The source of random octets fails, in a way that is fatal, before there are as many identifiers as asked
for. -/
structure Entropy.FailsUnder (e : Entropy) (count : Int) : Prop where
  positive : 1 ≤ count
  short : ¬ e.Suffices count.toNat
  fatal : e.FailsOpenly ∨ e.whenDry.exitCode? = some .fatal

/-- The exit codes of runs that read their command line. -/
def ExitCode.own : List ExitCode := [.success, .failure, .fatal]

namespace Program

variable {wording : Wording} {c : Config} {w : World} {i : Invocation} {command : Command} {code : ExitCode}

/-! ## The end of a command -/

/-- A fault ends a run with failure or as fatal. -/
theorem exitCode?_mem {fault : Fault} (h : fault.exitCode? = some code) : code ∈ [.failure, .fatal] := by
  unfold Fault.exitCode? at h
  split at h
  · cases h
    decide
  · cases h
    decide
  · split at h
    · cases h
      decide
    · cases h
      decide
  · cases h

/-- A run keeps the exit code of its command, and turns faults that it deals with into their exit code. -/
theorem conclude_eq_ok_iff {r : Except Fault ExitCode} :
    (conclude wording c r).1 = .ok code ↔
      r = .ok code ∨ ∃ fault, r = .error fault ∧ fault.exitCode? = some code := by
  cases r with
  | ok own => simp [conclude]
  | error fault =>
    simp only [reduceCtorEq, false_or, Except.error.injEq, exists_eq_left']
    unfold conclude Fault.exitCode?
    dsimp only
    split <;> simp

theorem conclude_execute_mem
    (h : (conclude wording c (execute wording c w command).result).1 = .ok code) : code ∈ ExitCode.own := by
  rcases conclude_eq_ok_iff.mp h with hok | ⟨fault, _, hcode⟩
  · rcases execute_eq_ok hok with rfl | rfl <;> decide
  · exact List.mem_cons_of_mem _ (exitCode?_mem hcode)

/-- A command ends with an exit code exactly if the world suits it. -/
theorem conclude_execute_iff :
    (∃ code, (conclude wording c (execute wording c w command).result).1 = .ok code) ↔ w.Suits c command := by
  have hneeds : Requires _ _ (execute wording c w command).result _ := execute_requires command
  simp only [conclude_eq_ok_iff]
  constructor
  · rintro ⟨code, hcode⟩
    -- A world that does not suit the command makes it fail in a way that no exit code stands for.
    by_contra hnot
    obtain ⟨fault, hfault, hwild⟩ := hneeds.wild_of hnot
    rcases hcode with hok | ⟨other, hother, hcode⟩
    · cases hfault.symm.trans hok
    · cases hfault.symm.trans hother
      cases hwild.symm.trans hcode
  · intro hsuits
    cases hresult : (execute wording c w command).result with
    | ok code => exact ⟨code, .inl rfl⟩
    | error fault =>
      obtain ⟨code, hcode⟩ := Option.isSome_iff_exists.mp (hneeds.mild_of hsuits fault hresult)
      exact ⟨code, .inr ⟨fault, rfl, hcode⟩⟩

theorem conclude_execute_fatal_iff :
    (conclude wording c (execute wording c w command).result).1 = .ok .fatal ↔
      ∃ count, command = .identifiers count ∧ w.entropy.FailsUnder count := by
  -- No command ends with the exit code of fatal faults by itself, so there was a fault.
  have hown : (execute wording c w command).result ≠ .ok .fatal := by
    intro h
    rcases execute_eq_ok h with h | h <;> cases h
  rw [conclude_eq_ok_iff, or_iff_right hown, execute_fatal_iff]
  constructor
  · rintro ⟨count, hcommand, hpos, hshort, hfatal⟩
    exact ⟨count, hcommand, hpos, hshort, hfatal⟩
  · rintro ⟨count, hcommand, hpos, hshort, hfatal⟩
    exact ⟨count, hcommand, hpos, hshort, hfatal⟩

/-! ## The stages -/

theorem perform_result {level? : Option LogLevel} {handle? : Option Handle} {files : FileSystem}
    (h : openLog c.logFile w.files = .ok (handle?, files)) :
    (perform wording level? c w command).result =
      (conclude wording c (execute wording c { w with files } command).result).1 := by
  unfold perform
  rw [h]

/-- With its configuration loaded a command is performed. -/
theorem performConfigured_of_ok (h : (loadConfig i.configPath w).1 = .ok c) :
    performConfigured wording i w command = perform wording i.level c w command := by
  have hfiles := loadConfig_snd (w := w) i.configPath
  unfold performConfigured
  cases hload : loadConfig i.configPath w with
  | mk result files =>
    rw [hload] at h hfiles
    cases h
    cases hfiles
    rfl

theorem performConfigured_of_error {fault : Fault} (h : (loadConfig i.configPath w).1 = .error fault) :
    (performConfigured wording i w command).result =
      if isConfigFailure fault then .ok .failure else .error fault := by
  unfold performConfigured
  cases hload : loadConfig i.configPath w with
  | mk result files =>
    rw [hload] at h
    cases h
    dsimp only
    split <;> rfl

theorem starts_iff (hload : (loadConfig i.configPath w).1 = .ok c) {handle? : Option Handle}
    {files : FileSystem} (hlog : openLog c.logFile w.files = .ok (handle?, files)) (d : Config)
    (others : FileSystem) : Starts i w d others ↔ d = c ∧ others = files := by
  constructor
  · rintro ⟨hconfig, other?, hother⟩
    cases hload.symm.trans hconfig
    cases hlog.symm.trans hother
    exact ⟨rfl, rfl⟩
  · rintro ⟨rfl, rfl⟩
    exact ⟨hload, handle?, hlog⟩

theorem perform_of_openLog_error {level? : Option LogLevel} {fault : Fault}
    (h : openLog c.logFile w.files = .error fault) :
    (perform wording level? c w command).result = .error fault := by
  unfold perform
  rw [h]

/-- A run ends with no other exit codes than its own. -/
theorem performConfigured_mem (h : (performConfigured wording i w command).result = .ok code) :
    code ∈ ExitCode.own := by
  cases hload : (loadConfig i.configPath w).1 with
  | error fault =>
    rw [performConfigured_of_error hload] at h
    split at h
    · cases h
      decide
    · cases h
  | ok c =>
    rw [performConfigured_of_ok hload] at h
    cases hlog : openLog c.logFile w.files with
    | error fault => cases h.symm.trans (perform_of_openLog_error hlog)
    | ok opened => exact conclude_execute_mem ((perform_result hlog).symm.trans h)

theorem performConfigured_iff :
    (∃ code, (performConfigured wording i w command).result = .ok code) ↔ w.SuitsRun i command := by
  have hneeds := loadConfig_requires (w := w) i.configPath
  cases hload : (loadConfig i.configPath w).1 with
  | error fault =>
    rw [performConfigured_of_error hload]
    rw [hload] at hneeds
    -- Without a configuration the later stages are not reached, so they need nothing.
    have hlater : ∀ c, (loadConfig i.configPath w).1 ≠ .ok c := fun c h => nomatch hload.symm.trans h
    cases hreport : isConfigFailure fault with
    | true =>
      have hsuits : w.SuitsConfig i.configPath := by
        by_contra hnot
        obtain ⟨other, hother, hwild⟩ := hneeds.wild_of hnot
        cases hother
        cases hreport.symm.trans hwild
      exact iff_of_true ⟨.failure, rfl⟩
        ⟨hsuits, fun c h => absurd h (hlater c), fun c _ h => absurd h.config (hlater c)⟩
    | false =>
      refine iff_of_false (fun ⟨_, h⟩ => nomatch h) fun h => ?_
      cases hreport.symm.trans (hneeds.mild_of h.config fault rfl)
  | ok c =>
    rw [performConfigured_of_ok hload]
    rw [hload] at hneeds
    cases hlog : openLog c.logFile w.files with
    | error fault =>
      have hnot : ¬ LogOpens w.files c.logFile := by
        rw [← exists_openLog_iff, hlog]
        exact fun ⟨_, h⟩ => nomatch h
      rw [perform_of_openLog_error hlog]
      exact iff_of_false (fun ⟨_, h⟩ => nomatch h) fun h => hnot (h.log c hload)
    | ok opened =>
      obtain ⟨handle?, files⟩ := opened
      have hopens : LogOpens w.files c.logFile := (exists_openLog_iff _ _).mp ⟨_, hlog⟩
      rw [perform_result hlog, conclude_execute_iff]
      constructor
      · intro hsuits
        refine ⟨hneeds.of_eq_ok, fun d hd => ?_, fun d others hstarts => ?_⟩
        · cases hload.symm.trans hd
          exact hopens
        · obtain ⟨rfl, rfl⟩ := (starts_iff hload hlog d others).mp hstarts
          exact hsuits
      · intro h
        exact h.command c files ((starts_iff hload hlog c files).mpr ⟨rfl, rfl⟩)

theorem performConfigured_fatal_iff :
    (performConfigured wording i w command).result = .ok .fatal ↔
      ∃ count, command = .identifiers count ∧ (∃ c files, Starts i w c files) ∧ w.entropy.FailsUnder count := by
  cases hload : (loadConfig i.configPath w).1 with
  | error fault =>
    rw [performConfigured_of_error hload]
    refine iff_of_false (fun h => by split at h <;> cases h) ?_
    rintro ⟨_, _, ⟨c, _, hstarts⟩, _⟩
    cases hload.symm.trans hstarts.config
  | ok c =>
    rw [performConfigured_of_ok hload]
    cases hlog : openLog c.logFile w.files with
    | error fault =>
      rw [perform_of_openLog_error hlog]
      refine iff_of_false nofun ?_
      -- A log that cannot be opened stops the program before its command.
      rintro ⟨_, _, ⟨d, _, hconfig, _, hopened⟩, _⟩
      cases hload.symm.trans hconfig
      cases hlog.symm.trans hopened
    | ok opened =>
      obtain ⟨handle?, files⟩ := opened
      have hstarts : ∃ c files, Starts i w c files := ⟨c, files, (starts_iff hload hlog c files).mpr ⟨rfl, rfl⟩⟩
      rw [perform_result hlog, conclude_execute_fatal_iff]
      simp only [hstarts, true_and]

/-! ## Runs -/

/-- Without a configuration file and with nothing set, a run starts with the standard configuration. -/
theorem starts_standard (hpath : i.configPath = none) (henv : w.env = .empty) :
    Starts i w .standard w.files where
  config := by
    rw [hpath, loadConfig, henv]
    rfl
  log := ⟨none, rfl⟩

end Program

end CanonStore
