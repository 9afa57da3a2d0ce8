import CanonStore.Proofs.Config.Sections

/-!
# Configurations read from their own dictionaries

A dictionary is read into a configuration in normal form (`isNormal_of_ofValue`): however the level was spelled,
it is one of the known ones, the debug setting is a truth value, and extra settings that count as false are an
empty dictionary. A configuration in normal form is read from its own dictionary as it is (`ofValue_toDict`), and
from an equal dictionary, whose entries may have another order, as an equal one (`IsNormal.ofValue_of_same`).
-/

namespace CanonStore

theorem LogLevel.ofName?_eq_some_iff {t : Text} {l : LogLevel} : ofName? t = some l ↔ t = l.name := by
  constructor
  · intro h
    have hname := List.find?_some h
    exact (of_decide_eq_true hname).symm
  · rintro rfl
    cases l <;> rfl

theorem LogLevel.toUpper_name (l : LogLevel) : l.name.toUpper = l.name := by
  cases l <;> rfl

namespace Config

open Value (lookup? EntriesSame)

variable {c : Config} {l : LogLevel} {keys : List Text} {entries others : List (Value × Value)}
  {file baseDir w : Value}

/-! ## The normal form -/

/-- The debug setting is a truth value, and extra settings count as true or are an empty dictionary. -/
structure IsNormal (c : Config) : Prop where
  debug : ∃ b, c.debug = .bool b
  extra : c.extra.isTrue = true ∨ c.extra = .dict []

/-- Every dictionary is read into a configuration in normal form. -/
theorem isNormal_of_ofValue {data : Value} (h : ofValue data = .ok c) : c.IsNormal := by
  obtain ⟨entries, _, _, _, hdebug, hextra⟩ := ofValue_eq_ok_iff.mp h
  refine ⟨⟨_, hdebug⟩, ?_⟩
  rw [hextra]
  split
  · next htrue => exact .inl htrue
  · exact .inr rfl

/-- The configuration is in normal form, and the property holds of its settings. -/
structure Holds (P : Value → Prop) (c : Config) : Prop where
  normal : c.IsNormal
  logFile : P c.logFile
  baseDir : P c.baseDir
  extra : P c.extra

/-- What holds of data, and passes to settings, holds of the configuration that they describe. -/
theorem Inherited.holds {P : Value → Prop} (hP : Inherited P) {data : Value} (hdata : P data)
    (hc : ofValue data = .ok c) : c.Holds P := by
  obtain ⟨hfile, hbase, hextra⟩ := hP.settings hdata hc
  exact ⟨isNormal_of_ofValue hc, hfile, hbase, hextra⟩

/-! ## Sections -/

theorem nodup_loggingNames : [Text.ofString "level", "file"].Nodup := by decide

theorem nodup_names : [Text.ofString "logging", "storage", "debug", "extra"].Nodup := by decide

/-- A value is read as the level whose name it shows, in letters of either case. -/
theorem readLevel_eq_ok_iff {v : Value} :
    readLevel v = .ok l ↔ ∃ shown, v.shown = .ok shown ∧ shown.toUpper = l.name := by
  unfold readLevel
  cases v.shown with
  | error fault => simp
  | ok shown =>
    simp only [Except.ok.injEq, exists_eq_left', ← LogLevel.ofName?_eq_some_iff]
    cases LogLevel.ofName? shown.toUpper <;> simp

theorem readLogging_dict (hknown : Known ["level", "file"] entries)
    (hlevel : lookup? "level" entries = some (.text l.name)) (hfile : lookup? "file" entries = some file) :
    readLogging (.dict entries) = .ok (l, file) := by
  refine readLogging_eq_ok_iff.mpr ⟨entries, sectionEntries_dict hknown, ?_, ?_⟩
  · rw [levelAt, hlevel]
    exact readLevel_eq_ok_iff.mpr ⟨l.name, rfl, l.toUpper_name⟩
  · rw [hfile, Option.getD_some]

theorem readStorage_dict (hknown : Known ["base_dir"] entries)
    (hbase : lookup? "base_dir" entries = some baseDir) : readStorage (.dict entries) = .ok baseDir := by
  refine readStorage_eq_ok_iff.mpr ⟨entries, sectionEntries_dict hknown, ?_⟩
  rw [hbase, Option.getD_some]

/-- The section on logging of an equal dictionary names the same level and an equal file. -/
theorem readLogging_of_same (h : Value.Same c.loggingDict w) :
    ∃ file, readLogging w = .ok (c.level, file) ∧ Value.Same c.logFile file := by
  obtain ⟨others, rfl, hknown, hlookup⟩ := h.exists_entries nodup_loggingNames
  obtain ⟨level, hlevel, hsame⟩ := hlookup "level" _ rfl
  obtain ⟨file, hfile, hfileSame⟩ := hlookup "file" _ rfl
  rw [hsame.eq_of_text? rfl] at hlevel
  exact ⟨file, readLogging_dict hknown hlevel hfile, hfileSame⟩

theorem readStorage_of_same (h : Value.Same (.ofFields [("base_dir", c.baseDir)]) w) :
    ∃ baseDir, readStorage w = .ok baseDir ∧ Value.Same c.baseDir baseDir := by
  obtain ⟨others, rfl, hknown, hlookup⟩ := h.exists_entries (List.nodup_singleton _)
  obtain ⟨baseDir, hbase, hsame⟩ := hlookup "base_dir" _ rfl
  exact ⟨baseDir, readStorage_dict hknown hbase, hsame⟩

/-! ## The whole dictionary -/

/-- A configuration in normal form is what its own dictionary describes. -/
theorem IsNormal.ofValue_toDict (h : c.IsNormal) : ofValue c.toDict = .ok c := by
  have hlogging : Known ["level", "file"] [(.text "level", .text c.level.name), (.text "file", c.logFile)] := by
    simp [Known, Value.text?]
  have hstorage : Known ["base_dir"] [(.text "base_dir", c.baseDir)] := by simp [Known, Value.text?]
  refine ofValue_eq_ok_iff.mpr ⟨_, rfl, readLogging_dict hlogging rfl rfl, readStorage_dict hstorage rfl, ?_, ?_⟩
  · show c.debug = .bool c.debug.isTrue
    obtain ⟨b, hb⟩ := h.debug
    rw [hb]
    rfl
  · show c.extra = if c.extra.isTrue then c.extra else .dict []
    rcases h.extra with htrue | hempty
    · rw [if_pos htrue]
    · rw [hempty]
      rfl

/-- Equal configurations have the same level and equal settings. -/
structure Same (c d : Config) : Prop where
  level : c.level = d.level
  logFile : Value.Same c.logFile d.logFile
  baseDir : Value.Same c.baseDir d.baseDir
  debug : Value.Same c.debug d.debug
  extra : Value.Same c.extra d.extra

/-- A dictionary equal to that of a configuration in normal form describes an equal configuration. -/
theorem IsNormal.ofValue_of_same (h : c.IsNormal) (hw : Value.Same c.toDict w) :
    ∃ d, ofValue w = .ok d ∧ c.Same d := by
  obtain ⟨others, rfl, _, hlookup⟩ := hw.exists_entries nodup_names
  have hget : ∀ key v, (∃ u, lookup? key others = some u ∧ Value.Same v u) → Value.Same v (get key others) := by
    rintro key v ⟨u, hu, hvu⟩
    rw [get, hu]
    exact hvu
  obtain ⟨file, hlogging, hfile⟩ := readLogging_of_same (hget _ _ (hlookup "logging" _ rfl))
  obtain ⟨baseDir, hstorage, hbase⟩ := readStorage_of_same (hget _ _ (hlookup "storage" _ rfl))
  have hdebug : Value.Same c.debug (get "debug" others) := hget _ _ (hlookup "debug" _ rfl)
  have hextra : Value.Same c.extra (get "extra" others) := hget _ _ (hlookup "extra" _ rfl)
  refine ⟨⟨c.level, file, baseDir, .bool (get "debug" others).isTrue,
    if (get "extra" others).isTrue then get "extra" others else .dict []⟩,
    ofValue_eq_ok_iff.mpr ⟨others, rfl, hlogging, hstorage, rfl, rfl⟩, rfl, hfile, hbase, ?_, ?_⟩
  · obtain ⟨b, hb⟩ := h.debug
    rw [← hdebug.isTrue_eq, hb]
    rfl
  · -- Extra settings that count as true are kept; all others are the empty dictionary on both sides.
    show Value.Same c.extra (if (get "extra" others).isTrue then get "extra" others else .dict [])
    rw [← hextra.isTrue_eq]
    rcases h.extra with htrue | hempty
    · rwa [if_pos htrue]
    · rw [hempty]
      rfl

/-- The dictionary of a configuration repeats no key if its settings do not. -/
theorem wellformed_toDict (h : c.Holds Value.Wellformed) : c.toDict.Wellformed := by
  obtain ⟨b, hdebug⟩ := h.normal.debug
  have hlogging : c.loggingDict.Wellformed := by
    apply Value.wellformed_ofFields
    · exact nodup_loggingNames
    · simpa using ⟨trivial, h.logFile⟩
  have hstorage : (Value.ofFields [("base_dir", c.baseDir)]).Wellformed := by
    apply Value.wellformed_ofFields
    · exact List.nodup_singleton _
    · simpa using h.baseDir
  apply Value.wellformed_ofFields
  · exact nodup_names
  · simpa [hdebug] using ⟨hlogging, hstorage, trivial, h.extra⟩

end Config

end CanonStore
