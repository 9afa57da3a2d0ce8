import CanonStore.Proofs.Config.Copy

/-!
# The environment laid over a configuration

The environment can be laid over a configuration in two ways: over the configuration that a dictionary
describes (`Config.overlay`), or over the dictionary, section by section, before that is read
(`Value.overlaid`). Either way gives the same configuration or the same report, as long as the configuration
can be copied or the environment sets nothing (`overlay_config_eq_iff`).
-/

namespace CanonStore

namespace Value

/-! ## Dictionaries laid over one another -/

/-- What entries hold at a key, null if they do not have it. -/
def atKey (key : Value) (entries : List (Value × Value)) : Value :=
  ((entries.find? fun e => sameAs e.1 key).map (·.2)).getD .null

/-- Entries set one by one over those that are there; what is set may depend on the value before. -/
def setAll (join : Value → Value → Value) (entries others : List (Value × Value)) : List (Value × Value) :=
  others.foldl (fun es e => setEntry e.1 (join (atKey e.1 es) e.2) es) entries

/-- A value in place of an old one; a dictionary is laid over the section that was there. -/
def inPlaceOf (old : Value) : Value → Value
  | .dict settings => .dict (setAll (fun _ v => v) old.inSection settings)
  | v => v

/-- Entries with others laid over them, section by section. -/
def overlaid (entries others : List (Value × Value)) : List (Value × Value) := setAll inPlaceOf entries others

theorem atKey_text (key : Text) (entries : List (Value × Value)) :
    atKey (.text key) entries = Config.get key entries := by
  have hkeys : (fun e : Value × Value => sameAs e.1 (.text key)) = fun e => decide (e.1.text? = some key) := by
    funext e
    rw [Bool.eq_iff_iff, sameAs_text_iff, decide_eq_true_eq]
  unfold atKey Config.get lookup?
  rw [hkeys]

theorem field?_cons (key : Text) (f : Text × Value) (rest : List (Text × Value)) :
    field? key (f :: rest) = if f.1 = key then some f.2 else field? key rest := by
  by_cases hkey : f.1 = key <;> simp [field?, hkey]

/-- No field is found under a name that none has. -/
theorem field?_eq_none_iff {key : Text} {fields : List (Text × Value)} :
    field? key fields = none ↔ key ∉ fields.map Prod.fst := by
  simp only [field?, Option.map_eq_none_iff, List.find?_eq_none, decide_eq_true_eq, List.mem_map, not_exists,
    not_and]

/-- Fields as entries of a dictionary. -/
def entriesOf (fields : List (Text × Value)) : List (Value × Value) := fields.map fun f => (.text f.1, f.2)

/-- After all fields are set, a key has what its field makes of the value before, if there is such a field. -/
theorem lookup?_setAll {join : Value → Value → Value} {fields : List (Text × Value)}
    (hfields : (fields.map Prod.fst).Nodup) (key : Text) (entries : List (Value × Value)) :
    lookup? key (setAll join entries (entriesOf fields)) =
      ((field? key fields).map (join (Config.get key entries))).or (lookup? key entries) := by
  induction fields generalizing entries with
  | nil => rfl
  | cons f rest ih =>
    obtain ⟨hfirst, hrest⟩ := List.nodup_cons.mp hfields
    refine (ih hrest (setEntry (.text f.1) (join (atKey (.text f.1) entries) f.2) entries)).trans ?_
    rw [Config.get, lookup?_setEntry, atKey_text]
    rw [field?_cons]
    by_cases hkey : f.1 = key
    · -- No later field has the key again.
      subst hkey
      rw [field?_eq_none_iff.mpr hfirst, if_pos rfl, if_pos rfl]
      rfl
    · rw [if_neg (Ne.symm hkey), if_neg hkey]
      rfl

/-- Setting entries keeps what holds of all keys. -/
theorem forall_mem_setAll {P : Value → Prop} {join : Value → Value → Value}
    {entries others : List (Value × Value)} (hentries : ∀ e ∈ entries, P e.1)
    (hothers : ∀ e ∈ others, P e.1) : ∀ e ∈ setAll join entries others, P e.1 := by
  induction others generalizing entries with
  | nil => exact hentries
  | cons e rest ih =>
    obtain ⟨he, hrest⟩ := List.forall_mem_cons.mp hothers
    refine ih (fun f hf => ?_) hrest
    have hset := forall_mem_setEntry (P := P) (Q := fun _ => True) (v := join (atKey e.1 entries) e.2) he
      trivial fun f hf => ⟨hentries f hf, trivial⟩
    exact (hset f hf).1

end Value

namespace Config

open Value (inSection inPlaceOf overlaid setAll entriesOf field? field?_cons field?_eq_none_iff lookup?
  lookup?_setAll forall_mem_setAll copyFaultAt_eq_none_iff)

/-! ## Sections with settings laid over them -/

/-- A section that can be read can still be read with known settings laid over it, and has these settings
in place of its own. -/
theorem sectionEntries_inPlaceOf {record : Text} {keys : List Text} {v : Value}
    {entries : List (Value × Value)} (h : sectionEntries record keys v = .ok entries)
    {fields : List (Text × Value)} (hfields : (fields.map Prod.fst).Nodup)
    (hknown : ∀ f ∈ fields, f.1 ∈ keys) :
    ∃ entries', sectionEntries record keys (inPlaceOf v (.ofFields fields)) = .ok entries' ∧
      ∀ key, lookup? key entries' = (field? key fields).or (lookup? key entries) := by
  obtain ⟨_, hentries, rfl⟩ := sectionEntries_eq_ok_iff.mp h
  have hover : ∀ e ∈ entriesOf fields, ∃ t ∈ keys, e.1.text? = some t :=
    List.forall_mem_map.mpr fun f hf => ⟨f.1, hknown f hf, rfl⟩
  have hall : Known keys (setAll (fun _ v => v) v.inSection (entriesOf fields)) :=
    forall_mem_setAll (P := fun k => ∃ t ∈ keys, k.text? = some t) hentries hover
  refine ⟨_, sectionEntries_dict hall, fun key => ?_⟩
  refine (lookup?_setAll hfields key v.inSection).trans ?_
  rw [Option.map_id']

/-- Settings that take the place of others in the logging section change what they set and nothing else. -/
theorem readLogging_inPlaceOf {v : Value} {l : LogLevel} {file : Value} (h : readLogging v = .ok (l, file))
    {fields : List (Text × Value)} (hfields : (fields.map Prod.fst).Nodup)
    (hknown : ∀ f ∈ fields, f.1 ∈ [Text.ofString "level", "file"]) :
    readLogging (inPlaceOf v (.ofFields fields)) =
      (((field? "level" fields).map readLevel).getD (.ok l)).map fun l' =>
        (l', (field? "file" fields).getD file) := by
  obtain ⟨entries, hentries, hlevel, rfl⟩ := readLogging_eq_ok_iff.mp h
  obtain ⟨entries', hentries', hlookup⟩ := sectionEntries_inPlaceOf hentries hfields hknown
  rw [readLogging_eq, hentries']
  show (levelAt entries').map _ = _
  -- A file that is set hides the one of the section; a level likewise, and then the section need not name
  -- one.
  have hfile : ((field? "file" fields).or (lookup? "file" entries)).getD .null =
      (field? "file" fields).getD ((lookup? "file" entries).getD .null) := by
    cases field? "file" fields <;> rfl
  rw [levelAt, hlookup, hlookup, hfile]
  cases field? "level" fields with
  | some x => rfl
  | none =>
    rw [levelAt] at hlevel
    rw [Option.none_or, hlevel]
    rfl

/-- A section on storage with other settings laid over it. -/
theorem readStorage_inPlaceOf {v baseDir : Value} (h : readStorage v = .ok baseDir)
    {fields : List (Text × Value)} (hfields : (fields.map Prod.fst).Nodup)
    (hknown : ∀ f ∈ fields, f.1 ∈ [Text.ofString "base_dir"]) :
    readStorage (inPlaceOf v (.ofFields fields)) = .ok ((field? "base_dir" fields).getD baseDir) := by
  obtain ⟨entries, hentries, rfl⟩ := readStorage_eq_ok_iff.mp h
  obtain ⟨entries', hentries', hlookup⟩ := sectionEntries_inPlaceOf hentries hfields hknown
  refine readStorage_eq_ok_iff.mpr ⟨entries', hentries', ?_⟩
  rw [hlookup]
  cases field? "base_dir" fields <;> rfl

/-! ## The dictionary of the environment -/

/-- The fields of the settings that are made. -/
def made (settings : List (Text × Option Value)) : List (Text × Value) :=
  settings.filterMap fun s => s.2.map fun v => (s.1, v)

theorem made_cons (key : Text) (v? : Option Value) (rest : List (Text × Option Value)) :
    made ((key, v?) :: rest) = v?.toList.map (fun v => (key, v)) ++ made rest := by
  cases v? <;> rfl

/-- The settings that are made keep their order. -/
theorem map_fst_made_sublist (settings : List (Text × Option Value)) :
    ((made settings).map Prod.fst).Sublist (settings.map Prod.fst) := by
  induction settings with
  | nil => exact .slnil
  | cons s rest ih =>
    obtain ⟨key, v?⟩ := s
    rw [made_cons]
    cases v? with
    | none => exact ih.cons key
    | some v => exact ih.cons_cons key

/-- A setting is made exactly if it has a value. -/
theorem field?_made {settings : List (Text × Option Value)} (h : (settings.map Prod.fst).Nodup)
    {s : Text × Option Value} (hs : s ∈ settings) : field? s.1 (made settings) = s.2 := by
  induction settings with
  | nil => cases hs
  | cons t rest ih =>
    obtain ⟨key, v?⟩ := t
    obtain ⟨hfirst, hrest⟩ := List.nodup_cons.mp h
    rw [made_cons]
    rcases List.mem_cons.mp hs with rfl | hlater
    · cases v? with
      | some v => exact (field?_cons _ _ _).trans (if_pos rfl)
      | none =>
        -- No later setting has the key.
        exact field?_eq_none_iff.mpr fun hmem => hfirst ((map_fst_made_sublist rest).subset hmem)
    · have hmem : s.1 ∈ rest.map Prod.fst := List.mem_map_of_mem hlater
      have hne : key ≠ s.1 := fun heq => hfirst (heq ▸ hmem)
      refine Eq.trans ?_ (ih hrest hlater)
      cases v? with
      | none => rfl
      | some v => exact (field?_cons _ _ _).trans (if_neg hne)

/-- The settings of a section, if any of them is made. -/
def section? (settings : List (Text × Option Value)) : Option Value :=
  if (made settings).isEmpty then none else some (.ofFields (made settings))

/-- What the environment says of logging. -/
def loggingOf (env : Environment) : List (Text × Option Value) :=
  [("level", env.logLevel.map .text), ("file", env.logFile.map .text)]

/-- What the environment says of storage. -/
def storageOf (env : Environment) : List (Text × Option Value) := [("base_dir", env.storageDir.map .text)]

/-- What the environment says of a configuration: at most a section on logging, one on storage, and the
switch for debugging. -/
def settingsOf (env : Environment) : List (Text × Option Value) :=
  [("logging", section? (loggingOf env)), ("storage", section? (storageOf env)),
    ("debug", env.debug.map fun t => .bool (Environment.isDebugWord t))]

/-- The overrides are the settings that the environment makes, section by section. -/
theorem overrides_eq (env : Environment) : overrides env = .ofFields (made (settingsOf env)) := by
  obtain ⟨level, file, dir, debug⟩ := env
  cases level <;> cases file <;> cases dir <;> cases debug <;> rfl

/-! ## Reading a dictionary under the environment -/

/-- The level under the environment. -/
def levelUnder (c : Config) (env : Environment) : Except ConfigFault LogLevel :=
  (env.logLevel.map fun t => readLevel (.text t)).getD (.ok c.level)

/-- The configuration with a level and the other settings of the environment. -/
def under (c : Config) (env : Environment) (level : LogLevel) : Config :=
  { c with
    level
    logFile := (env.logFile.map Value.text).getD c.logFile
    baseDir := (env.storageDir.map Value.text).getD c.baseDir
    debug := (env.debug.map fun t => .bool (Environment.isDebugWord t)).getD c.debug }

/-- To override a configuration is to read its level under the environment and to change the rest. -/
theorem override_eq {c : Config} (hcopy : c.copyFault? = none) (env : Environment) :
    c.override env = (c.levelUnder env).map (c.under env) := by
  unfold override levelUnder
  rw [hcopy]
  cases env.logLevel with
  | none => rfl
  | some t =>
    show (readLevel (.text t) >>= _) = (readLevel (.text t)).map _
    cases readLevel (.text t) <;> rfl

/-- An overlaid dictionary has under a key what the field puts in the place of the old value, if there is one. -/
theorem get_overlaid {fields : List (Text × Value)} (hfields : (fields.map Prod.fst).Nodup) (key : Text)
    (entries : List (Value × Value)) :
    get key (overlaid entries (entriesOf fields)) =
      ((field? key fields).map (inPlaceOf (get key entries))).getD (get key entries) := by
  rw [get, overlaid, lookup?_setAll hfields]
  cases field? key fields <;> rfl

/-- Settings of known keys, as fields of a section. -/
theorem made_spec (settings : List (Text × Option Value)) (keys : List Text)
    (hkeys : settings.map Prod.fst = keys) (hnodup : keys.Nodup) :
    ((made settings).map Prod.fst).Nodup ∧ (∀ f ∈ made settings, f.1 ∈ keys) ∧
      ∀ s ∈ settings, field? s.1 (made settings) = s.2 := by
  subst hkeys
  have hsub := map_fst_made_sublist settings
  exact ⟨hsub.nodup hnodup, fun f hf => hsub.subset (List.mem_map_of_mem hf), fun s hs => field?_made hnodup hs⟩

/-- What is read from a section with settings laid over it, if any of them is made. -/
theorem read_section? {settings : List (Text × Option Value)} {α : Type} {r : α} {read : Value → α} {v : Value}
    (hnone : made settings = [] → read v = r)
    (hlaid : read (inPlaceOf v (.ofFields (made settings))) = r) :
    read (((section? settings).map (inPlaceOf v)).getD v) = r := by
  unfold section?
  split
  · next hempty => exact hnone (List.isEmpty_iff.mp hempty)
  · exact hlaid

theorem readLogging_section? {v : Value} {l : LogLevel} {file : Value} (h : readLogging v = .ok (l, file))
    (env : Environment) :
    readLogging (((section? (loggingOf env)).map (inPlaceOf v)).getD v) =
      ((env.logLevel.map fun t => readLevel (.text t)).getD (.ok l)).map fun l' =>
        (l', (env.logFile.map Value.text).getD file) := by
  obtain ⟨hnodup, hknown, hfield⟩ := made_spec (loggingOf env) ["level", "file"] rfl (by decide)
  have hlevel := hfield _ List.mem_cons_self
  have hfile := hfield _ (List.mem_cons_of_mem _ List.mem_cons_self)
  have hlaid := readLogging_inPlaceOf h hnodup hknown
  rw [hlevel, hfile, Option.map_map] at hlaid
  refine read_section? (fun hempty => ?_) hlaid
  rw [hempty] at hlevel hfile
  have hnoLevel : env.logLevel = none := Option.map_eq_none_iff.mp hlevel.symm
  have hnoFile : env.logFile = none := Option.map_eq_none_iff.mp hfile.symm
  rw [hnoLevel, hnoFile]
  exact h

theorem readStorage_section? {v baseDir : Value} (h : readStorage v = .ok baseDir) (env : Environment) :
    readStorage (((section? (storageOf env)).map (inPlaceOf v)).getD v) =
      .ok ((env.storageDir.map Value.text).getD baseDir) := by
  obtain ⟨hnodup, hknown, hfield⟩ := made_spec (storageOf env) ["base_dir"] rfl (by decide)
  have hdir := hfield _ List.mem_cons_self
  have hlaid := readStorage_inPlaceOf h hnodup hknown
  rw [hdir] at hlaid
  refine read_section? (fun hempty => ?_) hlaid
  rw [hempty] at hdir
  have hnoDir : env.storageDir = none := Option.map_eq_none_iff.mp hdir.symm
  rw [hnoDir]
  exact h

/-- What a dictionary describes under the environment: the settings of the environment in place of those of
the dictionary. -/
theorem ofValue_overlaid {entries : List (Value × Value)} {c : Config} (hc : ofValue (.dict entries) = .ok c)
    (env : Environment) :
    ofValue (.dict (overlaid entries (overrides env).inSection)) = (c.levelUnder env).map (c.under env) := by
  rw [ofValue_dict, bind_eq_ok_iff] at hc
  obtain ⟨⟨l, file⟩, hlogging, hc⟩ := hc
  obtain ⟨baseDir, hstorage, rfl⟩ := map_eq_ok_iff.mp hc
  obtain ⟨hnodup, hknown, hfield⟩ := made_spec (settingsOf env) ["logging", "storage", "debug"] rfl (by decide)
  -- The environment has nothing to say of the entry `extra`.
  have hextra : field? "extra" (made (settingsOf env)) = none := by
    refine field?_eq_none_iff.mpr fun hmem => ?_
    obtain ⟨f, hf, hkey⟩ := List.mem_map.mp hmem
    exact absurd (hkey ▸ hknown f hf) (by decide)
  have hover : (overrides env).inSection = entriesOf (made (settingsOf env)) := by
    rw [overrides_eq]
    exact inSection_dict _
  have hfirst := hfield _ List.mem_cons_self
  have hsecond := hfield _ (List.mem_cons_of_mem _ List.mem_cons_self)
  have hthird := hfield _ (List.mem_cons_of_mem _ (List.mem_cons_of_mem _ List.mem_cons_self))
  rw [hover, ofValue_dict, get_overlaid hnodup, get_overlaid hnodup, get_overlaid hnodup, get_overlaid hnodup,
    hfirst, hsecond, hthird, hextra, readLogging_section? hlogging, readStorage_section? hstorage]
  unfold levelUnder under
  cases (env.logLevel.map fun t => readLevel (.text t)).getD (.ok l) with
  | error fault => rfl
  | ok l' => cases env.debug <;> rfl

/-! ## Laying the environment over a configuration -/

/-- Only a level that the environment names can be wrong. -/
theorem levelUnder_eq_error {c : Config} {env : Environment} {fault : ConfigFault}
    (h : c.levelUnder env = .error fault) : ∃ t, env.logLevel = some t ∧ fault = .unknownLevel t.toUpper := by
  unfold levelUnder at h
  cases hlevel : env.logLevel with
  | none =>
    rw [hlevel] at h
    cases h
  | some t =>
    rw [hlevel] at h
    exact ⟨t, rfl, (readLevel_text_eq_error_iff.mp h).2⟩

/-- An environment without variables leaves the configuration as it is, not even copied. -/
theorem overlay_empty (c : Config) : c.overlay .empty = .ok (.same c) := if_pos rfl

/-- A configuration that cannot be copied cannot be overlaid. -/
theorem overlay_of_copyFault? {c : Config} {env : Environment} {fault : CopyFault} (henv : env ≠ .empty)
    (hcopy : c.copyFault? = some fault) : c.overlay env = .error (.uncopied fault) := by
  rw [overlay, if_neg henv, override, hcopy]
  rfl

/-- The configuration under an environment that sets something, if the configuration can be copied. -/
theorem overlay_of_copyable {c : Config} {env : Environment} (henv : env ≠ .empty)
    (hcopy : c.copyFault? = none) :
    c.overlay env = (c.levelUnder env).map fun level => .copy (c.under env level) := by
  rw [overlay, if_neg henv, override_eq hcopy]
  cases c.levelUnder env <;> rfl

/-- Laying the environment over what a dictionary describes and over the dictionary itself is the same, unless
there is something to be set and the configuration cannot be copied. -/
theorem overlay_config_eq_iff {entries : List (Value × Value)} {c : Config}
    (hc : ofValue (.dict entries) = .ok c) (env : Environment) :
    (c.overlay env).map Overlay.config = ofValue (.dict (overlaid entries (overrides env).inSection)) ↔
      env = .empty ∨ c.copyFault? = none := by
  rw [ofValue_overlaid hc]
  by_cases henv : env = .empty
  · subst henv
    rw [overlay_empty]
    exact iff_of_true rfl (.inl rfl)
  · rw [or_iff_right henv]
    cases hcopy : c.copyFault? with
    | none =>
      rw [overlay_of_copyable henv hcopy]
      refine iff_of_true ?_ rfl
      cases c.levelUnder env <;> rfl
    | some fault =>
      rw [overlay_of_copyFault? henv hcopy]
      refine iff_of_false (fun h => ?_) nofun
      -- The dictionary is either read or reports the level, and neither is the failure of the copy.
      cases hlevel : c.levelUnder env with
      | ok level =>
        rw [hlevel] at h
        cases h
      | error other =>
        obtain ⟨t, _, rfl⟩ := levelUnder_eq_error hlevel
        rw [hlevel] at h
        cases h

/-- The standard configuration under the environment is that of the environment alone. -/
theorem overlay_standard (env : Environment) :
    (standard.overlay env).map Overlay.config = ofEnvironment env := by
  have hnone : ofValue (.dict []) = .ok standard := rfl
  have hover : .dict (overlaid [] (overrides env).inSection) = overrides env := by
    obtain ⟨level, file, dir, debug⟩ := env
    cases level <;> cases file <;> cases dir <;> cases debug <;> rfl
  rw [(overlay_config_eq_iff hnone env).mpr (.inr rfl), hover]
  rfl

/-! ## The two ways -/

/-- None of the variables of the configuration is set to a text that is not empty. -/
def SetsNothing (assignments : List (Text × Text)) : Prop :=
  ∀ name ∈ [Text.ofString "LOG_LEVEL", "LOG_FILE", "STORAGE_DIR", "DEBUG"],
    Environment.setting? name assignments = none

theorem ofVariables_eq_empty_iff (assignments : List (Text × Text)) :
    Environment.ofVariables assignments = .empty ↔ SetsNothing assignments := by
  simp only [SetsNothing, Environment.ofVariables, Environment.empty, Environment.mk.injEq,
    List.forall_mem_cons, List.not_mem_nil, false_imp_iff, implies_true, and_true]

/-- The environment laid over what a dictionary describes, and the dictionary with the environment laid over it
section by section, have the same outcome, a configuration or the report on an unknown level, exactly if the
environment sets nothing or the configuration can be copied; one that a plain dictionary describes can be if
no part of it is nested too deeply. The configuration itself is given back exactly if nothing is set, and any
other outcome is a copy. Over the standard configuration the environment gives what it gives alone. -/
theorem overlay_eq_ofValue_overlaid {entries : List (Value × Value)} {c : Config}
    (hc : ofValue (.dict entries) = .ok c) (assignments : List (Text × Text)) :
    let env := Environment.ofVariables assignments
    let merged := ofValue (.dict (overlaid entries (overrides env).inSection))
    ((c.overlay env).map Overlay.config = merged ↔ SetsNothing assignments ∨ c.copyFault? = none) ∧
      ((Value.dict entries).Plain → (c.copyFault? = none ↔
        ∀ v ∈ [c.logFile, c.baseDir, c.extra], v.nesting ≤ Value.maxCopyDepth)) ∧
      (∀ fault, merged = .error fault → ∃ t, env.logLevel = some t ∧ fault = .unknownLevel t.toUpper) ∧
      (SetsNothing assignments → c.overlay env = .ok (.same c)) ∧
      (¬ SetsNothing assignments → ∀ o, c.overlay env = .ok o → ∃ d, o = .copy d) ∧
      (standard.overlay env).map Overlay.config = ofEnvironment env := by
  intro env merged
  have hempty : env = .empty ↔ SetsNothing assignments := ofVariables_eq_empty_iff assignments
  rw [← hempty]
  refine ⟨overlay_config_eq_iff hc env, fun hplain => copyFault?_eq_none_iff hplain hc, ?_, ?_, ?_,
    overlay_standard env⟩
  · intro fault hfault
    have hmerged : merged = (c.levelUnder env).map (c.under env) := ofValue_overlaid hc env
    rw [hmerged] at hfault
    cases hlevel : c.levelUnder env with
    | ok level =>
      rw [hlevel] at hfault
      cases hfault
    | error other =>
      rw [hlevel] at hfault
      cases hfault
      exact levelUnder_eq_error hlevel
  · intro hnothing
    rw [hnothing]
    exact overlay_empty c
  · intro hsomething o ho
    rw [overlay, if_neg hsomething] at ho
    obtain ⟨d, _, rfl⟩ := map_eq_ok_iff.mp ho
    exact ⟨d, rfl⟩

/-- A log file of the dictionary stays, and the level comes from the environment. -/
theorem overlay_eq_ofValue_overlaid_partial :
    ∃ (entries : List (Value × Value)) (env : Environment) (c : Config),
      entries = [(.text "logging", .ofFields [("file", .text "a.log")]), (.text "debug", .int 1)] ∧
      env = .ofVariables [("CHAINUTIL_LOG_LEVEL", "ERROR"), ("CHAINUTIL_LOG_FILE", "")] ∧
      c = ⟨.info, .text "a.log", .null, .bool true, .dict []⟩ ∧ ofValue (.dict entries) = .ok c ∧
      (c.overlay env).map Overlay.config = ofValue (.dict (overlaid entries (overrides env).inSection)) :=
  ⟨_, _, _, rfl, rfl, rfl, rfl, (overlay_eq_ofValue_overlaid rfl _).1.mpr (.inr rfl)⟩

/-- Lists around a value, as many as asked for. -/
def inLists (count : Nat) (v : Value) : Value := (fun v => Value.list [v])^[count] v

/-- Every list around a value adds one to its nesting. -/
theorem nesting_inLists (count : Nat) (v : Value) : (inLists count v).nesting = v.nesting + count := by
  induction count with
  | zero => rfl
  | succ count ih =>
    unfold inLists at ih ⊢
    rw [Function.iterate_succ_apply', Value.nesting, Value.itemsNesting, Value.itemsNesting, Nat.max_zero, ih]
    rfl

theorem plain_inLists (count : Nat) {v : Value} (hv : v.Plain) : (inLists count v).Plain := by
  induction count with
  | zero => exact hv
  | succ count ih =>
    unfold inLists at ih ⊢
    rw [Function.iterate_succ_apply', Value.plain_list_iff, List.forall_mem_singleton]
    exact ih

/-- Settings of more lists inside one another than can be copied are read from a dictionary, with the
environment laid over it or not, but the environment cannot be laid over what was read. -/
theorem overlay_inLists {count : Nat} (h : Value.maxCopyDepth < count) :
    ∃ c d, ofValue (.dict [(.text "extra", inLists count (.int 1))]) = .ok c ∧
      ofValue (.dict (overlaid [(.text "extra", inLists count (.int 1))]
        (overrides (.ofVariables [("CHAINUTIL_DEBUG", "true")])).inSection)) = .ok d ∧
      (c.overlay (.ofVariables [("CHAINUTIL_DEBUG", "true")])).map Overlay.config ≠ .ok d := by
  have hone : (Value.int 1).Plain := trivial
  have hplain := plain_inLists count hone
  have hnesting := nesting_inLists count (.int 1)
  have htrue : (inLists count (.int 1)).isTrue = true := by
    obtain ⟨n, rfl⟩ := Nat.exists_eq_succ_of_ne_zero (Nat.ne_of_gt (Nat.zero_lt_of_lt h))
    unfold inLists
    rw [Function.iterate_succ_apply']
    rfl
  generalize inLists count (.int 1) = v at hplain hnesting htrue
  have hc : ofValue (.dict [(.text "extra", v)]) = .ok ⟨.info, .null, .null, .bool false, v⟩ := by
    have hextra : get "extra" [(.text "extra", v)] = v := rfl
    rw [ofValue_dict, hextra, htrue]
    rfl
  refine ⟨_, _, hc, (ofValue_overlaid hc _).trans rfl, ?_⟩
  -- Only a copy that fails keeps the overlay from the merged configuration, so a copy that succeeds has to
  -- be ruled out.
  cases hcopy : copyFault? ⟨.info, .null, .null, .bool false, v⟩ with
  | some fault =>
    rw [overlay_of_copyFault? (by decide) hcopy]
    exact nofun
  | none =>
    have hextra := ((copyFault?_eq_none_iff_parts _).mp hcopy).2.2.2
    rw [Value.copyFault?, copyFaultAt_eq_none_iff hplain, hnesting] at hextra
    exact absurd (Nat.lt_of_lt_of_le h (Nat.le_add_left count _)) (Nat.not_lt.mpr hextra)

/-- Five thousand lists are too many to be copied. -/
theorem overlay_inLists_ne :
    ∃ (entries : List (Value × Value)) (env : Environment) (c d : Config),
      entries = [(.text "extra", inLists 5000 (.int 1))] ∧
      env = .ofVariables [("CHAINUTIL_DEBUG", "true")] ∧ ofValue (.dict entries) = .ok c ∧
      ofValue (.dict (overlaid entries (overrides env).inSection)) = .ok d ∧
      (c.overlay env).map Overlay.config ≠ .ok d := by
  obtain ⟨c, d, hc, hd, hne⟩ := overlay_inLists (by decide : Value.maxCopyDepth < 5000)
  exact ⟨_, _, c, d, rfl, rfl, hc, hd, hne⟩

end Config

end CanonStore
