import CanonStore.Proofs.Config.Overlay
import CanonStore.Proofs.Program.Failure

/-!
# How a run is set up

Before a run performs its command it reads its configuration and opens its log. `World.SuitsConfig` says what
the configuration file has to hold for all failures of the first stage to be reported, and `LogOpens` when the
second one succeeds; it reports no failure at all.
-/

namespace CanonStore

/-! ## Configurations -/

/-- The fault becomes a report. -/
def ConfigFault.IsReport : ConfigFault → Prop
  | .badSection _ _ | .unknownLevel _ => True
  | _ => False

/-- A fault of the first stage that the run reports. -/
def Fault.IsConfigFailure (fault : Fault) : Prop := Program.isConfigFailure fault = true

/-- A fault of the first stage that passes through the run. -/
def Fault.IsNoConfigFailure (fault : Fault) : Prop := Program.isConfigFailure fault = false

namespace Config

open Fault (IsConfigFailure IsNoConfigFailure)

theorem isConfigFailure_of_isReport {fault : ConfigFault} (h : fault.IsReport) :
    IsConfigFailure fault.toFault := by
  cases fault with
  | badSection | unknownLevel => rfl
  | _ => cases h

theorem isNoConfigFailure_of_not_isReport {fault : ConfigFault} (h : ¬ fault.IsReport) :
    IsNoConfigFailure fault.toFault := by
  cases fault with
  | badSection | unknownLevel => exact absurd trivial h
  | notMapping | typeNotMapping => rfl
  | unshownLevel fault => cases fault <;> rfl
  | uncopied fault => cases fault <;> rfl

/-- Whatever is wrong with the keys of a section is reported. -/
theorem isReport_of_sectionEntries {record : Text} {keys : List Text} {v : Value} {fault : ConfigFault}
    (h : sectionEntries record keys v = .error fault) : fault.IsReport := by
  unfold sectionEntries at h
  split at h
  · cases h
  · split at h
    · cases h
      trivial
    · split at h
      · cases h
        trivial
      · split at h
        · cases h
          trivial
        · cases h

/-- A wrong level is reported, unless it cannot be shown. -/
theorem isReport_of_readLevel {v : Value} {fault : ConfigFault} (h : readLevel v = .error fault) :
    fault.IsReport ∨ ∃ f, fault = .unshownLevel f := by
  unfold readLevel at h
  split at h
  · next f _ =>
    cases h
    exact .inr ⟨f, rfl⟩
  · split at h
    · cases h
    · cases h
      exact .inl trivial

/-- What entries describe is refused by a report, apart from a level that cannot be shown. -/
theorem isReport_of_ofValue {data : Value} {fault : ConfigFault} (hdata : data.dictEntries?.isSome)
    (h : ofValue data = .error fault) : fault.IsReport ∨ ∃ f, fault = .unshownLevel f := by
  obtain ⟨entries, hentries⟩ := Option.isSome_iff_exists.mp hdata
  rw [ofValue_of_dictEntries? hentries] at h
  rcases bind_eq_error_iff.mp h with h | ⟨p, _, h⟩
  · rw [readLogging_eq] at h
    rcases bind_eq_error_iff.mp h with h | ⟨settings, _, h⟩
    · exact .inl (isReport_of_sectionEntries h)
    · have hlevel := map_eq_error_iff.mp h
      unfold levelAt at hlevel
      split at hlevel
      · cases hlevel
      · exact isReport_of_readLevel hlevel
  · have hbase := map_eq_error_iff.mp h
    rcases bind_eq_error_iff.mp hbase with h | ⟨_, _, h⟩
    · exact .inl (isReport_of_sectionEntries h)
    · cases h

/-- Reading a dictionary needs a level that can be shown. -/
theorem ofValue_requires {data : Value} (hdata : data.dictEntries?.isSome) :
    Requires ConfigFault.IsReport (¬ ·.IsReport) (ofValue data)
      (∀ fault, ofValue data ≠ .error (.unshownLevel fault)) := by
  cases hread : ofValue data with
  | ok c => exact .of_ok c nofun
  | error fault =>
    rcases isReport_of_ofValue hdata hread with h | ⟨f, rfl⟩
    · refine .of_mild h fun f heq => ?_
      cases heq
      exact h
    · exact .of_wild not_false fun h => h f rfl

/-- Laying the environment over a configuration needs nothing to be set, or a configuration to be copied. -/
theorem overlay_requires (c : Config) (env : Environment) :
    Requires ConfigFault.IsReport (¬ ·.IsReport) (c.overlay env) (env = .empty ∨ c.copyFault? = none) := by
  by_cases henv : env = .empty
  · subst henv
    rw [overlay_empty]
    exact .of_ok _ (.inl rfl)
  · cases hcopy : c.copyFault? with
    | some fault =>
      rw [overlay_of_copyFault? henv hcopy]
      exact .of_wild not_false (by simp [henv])
    | none =>
      rw [overlay_of_copyable henv hcopy]
      cases hlevel : c.levelUnder env with
      | ok level => exact .of_ok _ (.inr rfl)
      | error fault =>
        obtain ⟨_, _, rfl⟩ := levelUnder_eq_error hlevel
        exact .of_mild trivial (.inr rfl)

/-- The configuration of the environment alone fails only by a report. -/
theorem ofEnvironment_requires (env : Environment) :
    Requires ConfigFault.IsReport (¬ ·.IsReport) (ofEnvironment env) True := by
  -- The standard configuration can be copied, so laying the environment over it fails only by reports.
  rw [← overlay_standard]
  have hcopy : standard.copyFault? = none := rfl
  have hoverlay := overlay_requires standard env
  cases hread : standard.overlay env with
  | ok o => exact .of_ok _ trivial
  | error fault => exact .of_mild (hoverlay.mild_of (.inr hcopy) fault hread) trivial

/-! ## Configuration files -/

/-- The octets of a configuration file can be dealt with: they are the text of a YAML document, the level in
it can be shown, and the environment can be laid over what it describes. -/
def Understands (env : Environment) (octets : Bytes) : Prop :=
  ∃ t v, Text.ofFile octets = .ok t ∧ Yaml.read t = .ok v ∧
    (∀ fault, ofValue v ≠ .error (.unshownLevel fault)) ∧
    ∀ c, ofValue v = .ok c → env = .empty ∨ c.copyFault? = none

/-- A configuration with the environment laid over it, as a stage of a run. -/
def overlayStage (env : Environment) (c : Config) : Except Fault Config :=
  ((c.overlay env).mapError ConfigFault.toFault).map Overlay.config

theorem overlayStage_requires (env : Environment) (c : Config) :
    Requires IsConfigFailure IsNoConfigFailure (c.overlayStage env) (env = .empty ∨ c.copyFault? = none) :=
  ((overlay_requires c env).mapError (fun _ => isConfigFailure_of_isReport)
    fun _ => isNoConfigFailure_of_not_isReport).map

/-- The configuration that the value of a document describes. -/
def ofDocument (path : Text) (v : Value) : Except Fault Config :=
  match v with
  | .null => .ok standard
  | v =>
    if v.dictEntries?.isSome then (ofValue v).mapError ConfigFault.toFault
    else .error (notMappingFault path v)

theorem ofFile_eq (path : Text) (octets : Bytes) :
    ofFile path octets = (Text.ofFile octets).mapError (fun fault => .plain .textDecoding fault.message) >>=
      fun t => (Yaml.read t).mapError YamlFault.toFault >>= ofDocument path := by
  unfold ofFile
  apply bind_congr
  intro t
  apply bind_congr
  intro v
  cases v <;> rfl

theorem ofDocument_requires (path : Text) (v : Value) (env : Environment) :
    Requires IsConfigFailure IsNoConfigFailure (ofDocument path v >>= overlayStage env)
      ((∀ fault, ofValue v ≠ .error (.unshownLevel fault)) ∧
        ∀ c, ofValue v = .ok c → env = .empty ∨ c.copyFault? = none) := by
  have hnone : v.dictEntries? = none → (∀ fault, ofValue v ≠ .error (.unshownLevel fault)) ∧
      ∀ c, ofValue v = .ok c → env = .empty ∨ c.copyFault? = none := by
    intro h
    unfold ofValue
    rw [h]
    split
    · simp
    · simp
    · next hentries => cases hentries
  -- An empty document is the standard configuration, not a document that is no mapping.
  by_cases hnull : v = .null
  · subst hnull
    exact (overlayStage_requires env standard).congr (iff_of_true (.inr rfl) (hnone rfl))
  · have hdocument : ofDocument path v = if v.dictEntries?.isSome then
        (ofValue v).mapError ConfigFault.toFault else .error (notMappingFault path v) := by
      unfold ofDocument
      split
      · exact absurd rfl hnull
      · rfl
    rw [hdocument]
    cases hentries : v.dictEntries? with
    | none => exact .of_mild rfl (hnone hentries)
    | some entries =>
      have hread := (ofValue_requires (Option.isSome_iff_exists.mpr ⟨entries, hentries⟩)).mapError
        (fun _ => isConfigFailure_of_isReport) fun _ => isNoConfigFailure_of_not_isReport
      refine (hread.bind fun c _ => overlayStage_requires env c).congr ?_
      simp only [mapError_eq_ok_iff]

/-- A configuration file needs to be dealt with. -/
theorem ofFile_requires (path : Text) (octets : Bytes) (env : Environment) :
    Requires IsConfigFailure IsNoConfigFailure (ofFile path octets >>= overlayStage env)
      (Understands env octets) := by
  rw [ofFile_eq]
  unfold Understands
  cases htext : Text.ofFile octets with
  | error fault => exact .of_wild rfl (by simp)
  | ok t =>
    cases hyaml : Yaml.read t with
    | error fault =>
      -- What is wrong with the syntax of the file is not reported as a fault of the configuration.
      have hwild : IsNoConfigFailure fault.toFault := by
        cases fault with
        | malformed stage => rfl
        | tooDeep => rfl
        | scalar kind message => cases kind <;> rfl
      show Requires _ _ ((Yaml.read t).mapError YamlFault.toFault >>= ofDocument path >>= overlayStage env) _
      rw [hyaml]
      exact .of_wild hwild (by simp [hyaml])
    | ok v =>
      show Requires _ _ ((Yaml.read t).mapError YamlFault.toFault >>= ofDocument path >>= overlayStage env) _
      rw [hyaml]
      refine (ofDocument_requires path v env).congr ?_
      simp [hyaml]

end Config

/-- The file that a run takes its configuration from, if there is one, has an end and can be dealt with. -/
def World.SuitsConfig (w : World) (path? : Option Text) : Prop :=
  ∀ path, path? = some path → w.files.hasPath (PathName.normalText path) = .ok true →
    (w.files.readFile (PathName.normalText path)).1 ≠ .error .endless ∧
      ∀ octets, (w.files.readFile (PathName.normalText path)).1 = .ok octets → Config.Understands w.env octets

namespace Program

open Fault (IsConfigFailure IsNoConfigFailure)

variable {w : World}

/-- A path that leads to something can be located. -/
theorem locate_of_hasPath {fs : FileSystem} {path : Text} (h : fs.hasPath path = .ok true) :
    ∃ d, fs.locate path = .ok d := by
  cases hnode : fs.nodeOf path with
  | ok found =>
    obtain ⟨d, hlocate, _⟩ := bind_eq_ok_iff.mp hnode
    exact ⟨d, hlocate⟩
  | error fault =>
    rw [FileSystem.hasPath, hnode] at h
    cases fault with
    | system fault =>
      dsimp only at h
      split at h <;> cases h
    | _ => cases h

/-- A path that is there is a path. -/
theorem check_of_hasPath {fs : FileSystem} {path : Text} (h : fs.hasPath path = .ok true) :
    FilePath.check path = .ok () := by
  obtain ⟨d, hlocate⟩ := locate_of_hasPath h
  exact (FileSystem.locate_eq_ok_iff.mp hlocate).1

theorem isConfigFailure_of_isRefusal {fault : FileFault} (h : fault.IsRefusal) :
    IsConfigFailure fault.toFault := by
  cases fault with
  | system fault => rfl
  | _ => cases h

theorem isNoConfigFailure_of_isNoRefusal {fault : FileFault} (h : fault.IsNoRefusal) :
    IsNoConfigFailure fault.toFault := by
  cases fault with
  | system fault => exact absurd trivial h
  | _ => rfl

theorem readConfigFile_requires (fs : FileSystem) (path : Text) (env : Environment) :
    Requires IsConfigFailure IsNoConfigFailure ((readConfigFile fs path).1 >>= Config.overlayStage env)
      (fs.hasPath path = .ok true → (fs.readFile path).1 ≠ .error .endless ∧
        ∀ octets, (fs.readFile path).1 = .ok octets → Config.Understands env octets) := by
  unfold readConfigFile
  cases hpath : fs.hasPath path with
  | error fault => exact .of_mild rfl nofun
  | ok found =>
    cases found with
    | false => exact .of_mild rfl nofun
    | true =>
      -- The path was looked up already, so it is one that the system takes.
      have hread := (fs.readFile_requires path).congr (and_iff_right (check_of_hasPath hpath))
      have hstages := (hread.mapError (fun _ => isConfigFailure_of_isRefusal)
        fun _ => isNoConfigFailure_of_isNoRefusal).bind fun octets _ => Config.ofFile_requires path octets env
      simp only [mapError_eq_ok_iff] at hstages
      rw [eq_self, true_imp_iff]
      dsimp only
      cases hresult : fs.readFile path with
      | mk result files =>
        rw [hresult] at hstages
        cases result with
        | error fault => exact hstages
        | ok octets => exact hstages

/-- The configuration of a file is read, and then the environment is laid over it. -/
theorem loadConfig_file (path : Text) (w : World) : (loadConfig (some path) w).1 =
    (readConfigFile w.files (PathName.normalText path)).1 >>= Config.overlayStage w.env := by
  unfold loadConfig
  dsimp only
  cases readConfigFile w.files (PathName.normalText path) with
  | mk result files => cases result <;> rfl

/-- The first stage of a run needs a configuration file that suits it. -/
theorem loadConfig_requires (path? : Option Text) :
    Requires IsConfigFailure IsNoConfigFailure (loadConfig path? w).1 (w.SuitsConfig path?) := by
  cases path? with
  | none =>
    refine ((Config.ofEnvironment_requires w.env).mapError (fun _ => Config.isConfigFailure_of_isReport)
      fun _ => Config.isNoConfigFailure_of_not_isReport).congr (iff_of_true trivial ?_)
    exact fun _ h => nomatch h
  | some path =>
    have hstages := readConfigFile_requires w.files (PathName.normalText path) w.env
    rw [loadConfig_file]
    refine hstages.congr ?_
    unfold World.SuitsConfig
    simp only [Option.some.injEq, forall_eq']

/-- Reading a configuration file changes no file. -/
theorem readConfigFile_snd (fs : FileSystem) (path : Text) : (readConfigFile fs path).2 = fs := by
  have hread := fs.readFile_snd path
  unfold readConfigFile
  cases fs.hasPath path with
  | error fault => rfl
  | ok found =>
    cases found with
    | false => rfl
    | true =>
      dsimp only
      cases hresult : fs.readFile path with
      | mk result files =>
        rw [hresult] at hread
        cases result <;> exact hread

/-- Reading the configuration leaves the files as they are. -/
theorem loadConfig_snd (path? : Option Text) : (loadConfig path? w).2 = w.files := by
  cases path? with
  | none => rfl
  | some path =>
    have hfile := readConfigFile_snd w.files (PathName.normalText path)
    unfold loadConfig
    dsimp only
    cases hresult : readConfigFile w.files (PathName.normalText path) with
    | mk result files =>
      rw [hresult] at hfile
      cases result <;> exact hfile

/-! ## The log -/

/-- The log file of a configuration can be opened, or there is none. -/
def LogOpens (fs : FileSystem) (v : Value) : Prop :=
  v.isTrue = false ∨
    (∃ path, v = .text path ∧ (fs.opens? (absolutePath fs path)).isSome) ∨
      ∃ octets, v = .bytes octets ∧ (fs.opens? (absolutePath fs (FilePath.ofOctets octets))).isSome

/-- The log is opened exactly where `LogOpens` says. -/
theorem exists_openLog_iff (v : Value) (fs : FileSystem) : (∃ o, openLog v fs = .ok o) ↔ LogOpens fs v := by
  have hopen : ∀ path, (∃ o, fs.openFile (.extend logFileMode) path = .ok o) ↔ (fs.opens? path).isSome :=
    fun _ => FileSystem.exists_openFile_iff nofun
  unfold openLog LogOpens
  cases htrue : v.isTrue with
  | false => simp
  | true =>
    cases v with
    | text path => simpa [map_eq_ok_iff, mapError_eq_ok_iff, ← hopen] using exists_comm
    | bytes octets => simpa [map_eq_ok_iff, mapError_eq_ok_iff, ← hopen] using exists_comm
    | _ => simp

end Program

end CanonStore
