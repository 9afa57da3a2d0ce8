import CanonStore.Proofs.Config.Reread
import CanonStore.Proofs.Json.Document
import CanonStore.Proofs.Program.Setup
import CanonStore.Proofs.Yaml.Denoted

/-!
# The settings that runs start with

The settings of a run come from a document, from the environment, which sets texts and a truth value, or are the
standard ones. What holds of texts and of whatever documents denote, and passes to the entries of dictionaries,
holds of all of them (`holds_of_loadConfig`). So the dictionary of the configuration repeats no key and is literal.
-/

namespace CanonStore

/-! ## What documents denote -/

/-- The dictionaries of a document repeat no key. -/
theorem Yaml.formed_wellformed : Yaml.Formed Value.Wellformed where
  leaf := by
    intro v hv
    cases v with
    | null | bool | int | float | text | bytes | moment | date | foreign | endless => trivial
    | _ => exact hv.elim
  list := (Value.itemsWellformed_iff _).mpr
  pair := fun hk hv => ⟨hk, hv, trivial⟩
  dict := by
    intro entries h
    have hjoined := Value.forall_mem_joinEntries h
    exact ⟨Value.pairwise_joinEntries _, (Value.entriesWellformed_iff _).mpr fun e he => (hjoined e he).2⟩

theorem Yaml.formed_literal : Yaml.Formed Value.Literal where
  leaf := by
    intro v hv
    cases v with
    | null | bool | int | float | text | bytes | moment | date | foreign | endless => trivial
    | _ => exact hv.elim
  list := (Value.literal_list_iff _).mpr
  pair := fun hk hv => ⟨hk, hv, trivial⟩
  dict := fun h => (Value.literal_dict_iff _).mpr (Value.forall_mem_joinEntries h)

namespace Config

variable {P : Value → Prop} {c : Config}

theorem inherited_literal : Inherited Value.Literal :=
  .of_dict trivial trivial fun h e he => ((Value.literal_dict_iff _).mp h e he).2

/-- The dictionary of a configuration is literal if its settings are. -/
theorem literal_toDict (h : c.Holds Value.Literal) : c.toDict.Literal := by
  obtain ⟨b, hdebug⟩ := h.normal.debug
  simp [toDict, loggingDict, Value.ofFields, hdebug, Value.Literal, Value.EntriesLiteral, h.logFile, h.baseDir,
    h.extra]

/-! ## The environment over settings -/

theorem holds_standard (hP : Inherited P) : standard.Holds P :=
  ⟨⟨⟨false, rfl⟩, .inr rfl⟩, hP.null, hP.null, hP.empty⟩

/-- The environment sets texts and a truth value only. -/
theorem Holds.under (htext : ∀ t, P (.text t)) (h : c.Holds P) (env : Environment) (level : LogLevel) :
    (c.under env level).Holds P where
  normal := by
    refine ⟨?_, h.normal.extra⟩
    unfold Config.under
    cases env.debug with
    | none => exact h.normal.debug
    | some t => exact ⟨_, rfl⟩
  logFile := by
    unfold Config.under
    cases env.logFile with
    | none => exact h.logFile
    | some t => exact htext t
  baseDir := by
    unfold Config.under
    cases env.storageDir with
    | none => exact h.baseDir
    | some t => exact htext t
  extra := h.extra

theorem Holds.overlay (htext : ∀ t, P (.text t)) (h : c.Holds P) {env : Environment} {o : Overlay}
    (ho : c.overlay env = .ok o) : o.config.Holds P := by
  by_cases henv : env = .empty
  · subst henv
    rw [overlay_empty] at ho
    cases ho
    exact h
  · cases hcopy : c.copyFault? with
    | some fault =>
      rw [overlay_of_copyFault? henv hcopy] at ho
      cases ho
    | none =>
      rw [overlay_of_copyable henv hcopy] at ho
      obtain ⟨level, _, rfl⟩ := map_eq_ok_iff.mp ho
      exact h.under htext env level

theorem holds_of_ofFile (hP : Inherited P) (hformed : Yaml.Formed P) {path : Text} {octets : Bytes}
    (h : ofFile path octets = .ok c) : c.Holds P := by
  rw [ofFile_eq] at h
  obtain ⟨t, _, h⟩ := bind_eq_ok_iff.mp h
  obtain ⟨v, hv, h⟩ := bind_eq_ok_iff.mp h
  have hvalue := hformed.of_read (mapError_eq_ok_iff.mp hv)
  unfold ofDocument at h
  split at h
  · cases h
    exact holds_standard hP
  · split at h
    · exact hP.holds hvalue (mapError_eq_ok_iff.mp h)
    · cases h

end Config

/-! ## Runs -/

namespace Program

variable {w : World} {c : Config}

theorem ofFile_of_readConfigFile {fs : FileSystem} {path : Text} (h : (readConfigFile fs path).1 = .ok c) :
    ∃ octets, Config.ofFile path octets = .ok c := by
  unfold readConfigFile at h
  split at h
  · cases h
  · cases h
  · split at h
    · cases h
    · exact ⟨_, h⟩

/-- The settings that a run starts with are texts, parts of documents or the standard ones. -/
theorem holds_of_loadConfig {P : Value → Prop} (hP : Config.Inherited P) (hformed : Yaml.Formed P)
    {path? : Option Text} (h : (loadConfig path? w).1 = .ok c) : c.Holds P := by
  have htext : ∀ t, P (.text t) := fun _ => hformed.leaf trivial
  cases path? with
  | none =>
    -- The configuration of the environment is the standard one under it.
    have hread : Config.ofEnvironment w.env = .ok c := mapError_eq_ok_iff.mp h
    rw [← Config.overlay_standard] at hread
    obtain ⟨o, ho, rfl⟩ := map_eq_ok_iff.mp hread
    exact (Config.holds_standard hP).overlay htext ho
  | some path =>
    rw [loadConfig_file] at h
    obtain ⟨d, hd, hstage⟩ := bind_eq_ok_iff.mp h
    obtain ⟨octets, hfile⟩ := ofFile_of_readConfigFile hd
    obtain ⟨o, ho, rfl⟩ := map_eq_ok_iff.mp hstage
    exact (Config.holds_of_ofFile hP hformed hfile).overlay htext (mapError_eq_ok_iff.mp ho)

end Program

end CanonStore
