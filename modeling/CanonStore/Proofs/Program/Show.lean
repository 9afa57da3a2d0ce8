import CanonStore.Proofs.Program.Frame
import CanonStore.Proofs.Program.Settings

/-!
# Configurations shown by runs

A run that is asked for its configuration prints the dictionary of it as a document. If all settings can be stored,
the log file and the base directory included, and they are not nested too deeply, then the lines that are printed
are read back as that very dictionary, from which the same configuration is read. Main statement: `run_configShow`.
-/

namespace CanonStore

namespace Config

variable {c : Config}

/-! ## The dictionary of a configuration -/

/-- The dictionary of a configuration can be stored exactly if its settings can. -/
theorem storable_toDict_iff (h : c.IsNormal) :
    c.toDict.Storable ↔ c.logFile.Storable ∧ c.baseDir.Storable ∧ c.extra.Storable := by
  obtain ⟨b, hdebug⟩ := h.debug
  have hlevel : (Value.text c.level.name).Storable := by
    show c.level.name.any CodePoint.isSurrogate = false
    cases c.level <;> decide
  have hlogging : c.loggingDict.Storable ↔ c.logFile.Storable := by
    rw [loggingDict, Value.storable_ofFields_iff ["level", "file"] rfl (by decide)]
    simp [hlevel]
  have hstorage : (Value.ofFields [("base_dir", c.baseDir)]).Storable ↔ c.baseDir.Storable := by
    rw [Value.storable_ofFields_iff ["base_dir"] rfl (by decide)]
    simp
  have hbool : (Value.bool b).Storable := trivial
  rw [toDict, Value.storable_ofFields_iff ["logging", "storage", "debug", "extra"] rfl (by decide)]
  simp [hlogging, hstorage, hdebug, hbool]

/-- No document denotes the dictionary of a configuration if a key of its base directory is no text. -/
theorem toValue_ne_toDict (h : c.baseDir.dictEntries?.any (fun es => es.any fun e => e.1.text?.isNone) = true)
    (j : Json) : j.toValue ≠ c.toDict := by
  intro hj
  -- What a document denotes is plain, and with it the base directory, the only entry of its section.
  have hplain : c.toDict.Plain := hj ▸ Value.plain_toValue j
  obtain ⟨_, ⟨_, ⟨_, hbase⟩, _⟩, _⟩ := hplain
  obtain ⟨entries, hentries, hkey⟩ := (Option.any_eq_true _ _).mp h
  obtain ⟨e, he, hnone⟩ := List.any_eq_true.mp hkey
  have hsome := Value.isSome_text?_of_plain hbase hentries e he
  rw [Option.isNone_iff_eq_none.mp hnone] at hsome
  cases hsome

end Config

namespace Program

open FileSystem (fresh)

variable {w : World} {c : Config} {arguments : List Text}

/-! ## Runs -/

/-- A run whose log cannot be opened prints nothing. -/
theorem run_of_not_logOpens {command : Command} (hperformed : performed? arguments w = some (c, command))
    (hlog : ¬ LogOpens w.files c.logFile) (wording : Wording) : (run wording arguments w).out = [] := by
  obtain ⟨level?, hrun⟩ := run_of_performed hperformed wording
  rw [hrun, perform]
  cases hopened : openLog c.logFile w.files with
  | error fault => rfl
  | ok o => exact absurd ((exists_openLog_iff _ _).mp ⟨o, hopened⟩) hlog

/-- A run that comes to show its configuration, if there is a document that shows it. -/
theorem run_of_performed_configShow {j : Json} (hperformed : performed? arguments w = some (c, .configShow))
    (hlog : LogOpens w.files c.logFile) (hj : Json.ofValue c.toDict = .ok j) (wording : Wording) :
    (run wording arguments w).result = .ok .success ∧ (run wording arguments w).out = line j.writeIndented := by
  obtain ⟨level?, hrun⟩ := run_of_performed hperformed wording
  obtain ⟨⟨handle?, files⟩, hopened⟩ := (exists_openLog_iff _ _).mpr hlog
  rw [hrun, perform, hopened]
  dsimp only
  rw [execute, configShow, hj]
  exact ⟨rfl, rfl⟩

/-- A run that is asked for its configuration, with a log that can be opened, succeeds if all settings of the
configuration can be stored and no more than four hundred containers lie inside one another in its dictionary. What
it prints is read as a document that denotes that dictionary, and the configuration is read from it as it was. -/
theorem run_configShow (hperformed : performed? arguments w = some (c, .configShow))
    (hlog : LogOpens w.files c.logFile) (hfile : c.logFile.Storable) (hbase : c.baseDir.Storable)
    (hextra : c.extra.Storable) (hnesting : c.toDict.nesting ≤ 400) (wording : Wording) :
    (run wording arguments w).result = .ok .success ∧
      ∃ j, Json.read (run wording arguments w).out = .ok j ∧ j.toValue = c.toDict ∧
        Config.ofValue j.toValue = .ok c := by
  obtain ⟨i, _, _, hload⟩ := performed?_eq_some_iff.mp hperformed
  -- Nothing in the settings comes from a program, so the dictionary is what some document denotes.
  have hliteral := holds_of_loadConfig Config.inherited_literal Yaml.formed_literal hload
  have hwellformed := holds_of_loadConfig Config.inherited_wellformed Yaml.formed_wellformed hload
  have hstorable := (Config.storable_toDict_iff hliteral.normal).mpr ⟨hfile, hbase, hextra⟩
  obtain ⟨j, hj, hread, hvalue⟩ := Json.exists_document (Config.literal_toDict hliteral)
    (Config.wellformed_toDict hwellformed) hstorable (hnesting.trans (by decide))
  obtain ⟨hresult, hout⟩ := run_of_performed_configShow hperformed hlog hj wording
  refine ⟨hresult, j, ?_, hvalue, ?_⟩
  · rw [hout]
    exact hread
  · rw [hvalue]
    exact hliteral.normal.ofValue_toDict

/-- Extra settings from a file, under a key beyond the first plane, and a base directory from the environment. -/
theorem run_configShow_merged :
    ∃ (w : World) (c : Config),
      w = ⟨(fresh ["work"] 0o022).put ["work", "c.yaml"]
          (.file (Utf8.encodeAny "extra:\n  \"\\U0001F600\": [true, []]\n") 0o644),
        .ofVariables [("CHAINUTIL_STORAGE_DIR", "b")], ⟨[], .plain (.system .other) []⟩, 0⟩ ∧
      performed? ["--config", "c.yaml", "config", "--show"] w = some (c, .configShow) ∧
      c.baseDir.text? = some (Text.ofString "b") ∧
      (Value.lookup? [0x1F600] (c.extra.dictEntries?.getD [])).isSome ∧
      ∀ wording, ∃ j, Json.read (run wording ["--config", "c.yaml", "config", "--show"] w).out = .ok j ∧
        j.toValue = c.toDict ∧ Config.ofValue j.toValue = .ok c := by
  generalize hw : (World.mk ((fresh ["work"] 0o022).put ["work", "c.yaml"]
      (.file (Utf8.encodeAny "extra:\n  \"\\U0001F600\": [true, []]\n") 0o644))
    (.ofVariables [("CHAINUTIL_STORAGE_DIR", "b")]) ⟨[], .plain (.system .other) []⟩ 0) = w
  -- All that is used of the configuration is checked in one evaluation.
  have hchecked : (performed? ["--config", "c.yaml", "config", "--show"] w).any (fun p => decide
      (p.2 = .configShow ∧ p.1.logFile.isTrue = false ∧ p.1.logFile.Storable ∧ p.1.baseDir.Storable ∧
        p.1.extra.Storable ∧ p.1.toDict.nesting ≤ 400 ∧ p.1.baseDir.text? = some (Text.ofString "b") ∧
        (Value.lookup? [0x1F600] (p.1.extra.dictEntries?.getD [])).isSome)) = true := by
    subst hw
    decide +kernel
  obtain ⟨⟨c, command⟩, hperformed, hc⟩ := (Option.any_eq_true _ _).mp hchecked
  obtain ⟨rfl, hlog, hfile, hbase, hextra, hnesting, hdir, hkey⟩ := of_decide_eq_true hc
  refine ⟨w, c, rfl, hperformed, hdir, hkey, fun wording => ?_⟩
  exact (run_configShow hperformed (.inl hlog) hfile hbase hextra hnesting wording).2

/-- Extra settings that are empty are not enough. Nothing at all is printed if the log file lies in a directory that
is missing, and no document denotes a base directory that is a dictionary with a number for a key. -/
theorem run_configShow_unshown :
    (∃ (w : World) (c : Config),
      w = ⟨fresh ["work"] 0o022, .ofVariables [("CHAINUTIL_LOG_FILE", "nodir/x.log")],
        ⟨[], .plain (.system .other) []⟩, 0⟩ ∧
      performed? ["config", "--show"] w = some (c, .configShow) ∧ c.extra = .dict [] ∧ c.toDict.Storable ∧
      ∀ wording j, Json.read (run wording ["config", "--show"] w).out ≠ .ok j) ∧
    ∃ (w : World) (c : Config),
      w = ⟨(fresh ["work"] 0o022).put ["work", "c.yaml"]
          (.file (Utf8.encodeAny "storage:\n  base_dir:\n    1: 2\n") 0o644), .empty,
        ⟨[], .plain (.system .other) []⟩, 0⟩ ∧
      performed? ["--config", "c.yaml", "config", "--show"] w = some (c, .configShow) ∧ c.extra.Storable ∧
      ∀ wording j, Json.read (run wording ["--config", "c.yaml", "config", "--show"] w).out = .ok j →
        j.toValue ≠ c.toDict := by
  constructor
  · generalize hw : (World.mk (fresh ["work"] 0o022) (.ofVariables [("CHAINUTIL_LOG_FILE", "nodir/x.log")])
      ⟨[], .plain (.system .other) []⟩ 0) = w
    have hload : (loadConfig none w).1 = .ok ⟨.info, .text "nodir/x.log", .null, .bool false, .dict []⟩ := by
      subst hw
      rfl
    have hperformed : performed? ["config", "--show"] w =
        some (⟨.info, .text "nodir/x.log", .null, .bool false, .dict []⟩, .configShow) :=
      performed?_eq_some_iff.mpr ⟨⟨none, none, some .configShow⟩, by decide +kernel, rfl, hload⟩
    -- The directory of the log file is missing, so the program stops before it shows anything.
    have hlog : ¬ LogOpens w.files (.text "nodir/x.log") := by
      subst hw
      rw [← exists_openLog_iff]
      rintro ⟨o, ho⟩
      cases ho
    refine ⟨w, _, rfl, hperformed, rfl, by decide, fun wording j => ?_⟩
    rw [run_of_not_logOpens hperformed hlog wording]
    exact Json.read_nil_ne j
  · generalize hw : (World.mk ((fresh ["work"] 0o022).put ["work", "c.yaml"]
      (.file (Utf8.encodeAny "storage:\n  base_dir:\n    1: 2\n") 0o644)) .empty
      ⟨[], .plain (.system .other) []⟩ 0) = w
    have hchecked : (performed? ["--config", "c.yaml", "config", "--show"] w).any (fun p => decide
        (p.2 = .configShow ∧ p.1.extra.Storable ∧
          p.1.baseDir.dictEntries?.any (fun es => es.any fun e => e.1.text?.isNone) = true)) = true := by
      subst hw
      decide +kernel
    obtain ⟨⟨c, command⟩, hperformed, hc⟩ := (Option.any_eq_true _ _).mp hchecked
    obtain ⟨rfl, hextra, hkey⟩ := of_decide_eq_true hc
    exact ⟨w, c, rfl, hperformed, hextra, fun wording j _ => Config.toValue_ne_toDict hkey j⟩

end Program

end CanonStore
