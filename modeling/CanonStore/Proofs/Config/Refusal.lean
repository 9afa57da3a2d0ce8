import CanonStore.Proofs.Canonical.Failure
import CanonStore.Proofs.Config.Reread
import CanonStore.Proofs.Program.Setup

/-!
# Dictionaries that describe no configuration

Which dictionaries describe a configuration, said of their entries (`IsSection`), and how reading ends for the
others. Each section is refused by a report of a configuration error, and so is a level that is not known. Only
a level that cannot even be shown as a text ends reading with a fault of its own. Main statement:
`ofValue_reports_iff`.
-/

namespace CanonStore

theorem ConfigFault.isReport_toFault_iff (fault : ConfigFault) :
    fault.toFault.IsReport .config ↔ fault.IsReport := by
  cases fault with
  | badSection | unknownLevel => exact iff_of_true ⟨_, _, rfl⟩ trivial
  | notMapping | typeNotMapping =>
    refine iff_of_false ?_ not_false
    rintro ⟨content, cause, h⟩
    cases h
  | unshownLevel fault =>
    refine iff_of_false ?_ not_false
    rintro ⟨content, cause, h⟩
    cases fault <;> cases h
  | uncopied fault =>
    refine iff_of_false ?_ not_false
    rintro ⟨content, cause, h⟩
    cases fault <;> cases h

namespace Config

open Value (lookup?)

variable {data : Value} {entries settings : List (Value × Value)} {section? : Option Value} {keys : List Text}

/-! ## Acceptable sections -/

/-- An entry is missing, counts as false, or is a dictionary all of whose keys are among the given ones and
whose settings are as demanded. -/
def IsSection (keys : List Text) (Demand : List (Value × Value) → Prop) : Option Value → Prop
  | none => True
  | some v => v.isTrue = false ∨ ∃ settings, v.dictEntries? = some settings ∧ Known keys settings ∧ Demand settings

/-- The level, if one is given, is in capital letters the name of one that there is. -/
def NamesLevel (settings : List (Value × Value)) : Prop :=
  ∀ v, lookup? "level" settings = some v →
    ∃ t, v.shown = .ok t ∧ t.toUpper ∈ [Text.ofString "DEBUG", "INFO", "WARNING", "ERROR", "CRITICAL"]

/-- The entry is no dictionary of settings for logging, or the level that it gives can be shown as a text. -/
def ShowsLevel (section? : Option Value) : Prop :=
  ∀ v settings l, section? = some v → v.dictEntries? = some settings → Known ["level", "file"] settings →
    lookup? "level" settings = some l → ∃ t, l.shown = .ok t

/-- Settings are read from an entry exactly if it is an acceptable section. -/
theorem exists_sectionEntries_iff (record : Text) {Demand : List (Value × Value) → Prop} (hempty : Demand []) :
    (∃ settings, sectionEntries record keys (section?.getD .null) = .ok settings ∧ Demand settings) ↔
      IsSection keys Demand section? := by
  have hknown : Known keys [] := List.forall_mem_nil _
  simp only [sectionEntries_eq_ok_iff]
  cases section? with
  | none => exact iff_of_true ⟨[], ⟨nofun, hknown, rfl⟩, hempty⟩ trivial
  | some v =>
    rw [Option.getD_some, IsSection, Value.inSection]
    cases v.isTrue with
    | false => exact iff_of_true ⟨[], ⟨nofun, hknown, rfl⟩, hempty⟩ (.inl rfl)
    | true =>
      cases v.dictEntries? with
      | none => simp
      | some settings => simp

/-! ## Levels -/

theorem mem_levelNames_iff {t : Text} :
    t ∈ [Text.ofString "DEBUG", "INFO", "WARNING", "ERROR", "CRITICAL"] ↔ ∃ l : LogLevel, t = l.name := by
  constructor
  · intro h
    simp only [List.mem_cons, List.not_mem_nil, or_false] at h
    obtain rfl | rfl | rfl | rfl | rfl := h
    · exact ⟨.debug, rfl⟩
    · exact ⟨.info, rfl⟩
    · exact ⟨.warning, rfl⟩
    · exact ⟨.error, rfl⟩
    · exact ⟨.critical, rfl⟩
  · rintro ⟨l, rfl⟩
    cases l <;> decide

/-- Settings have a level exactly if they give none, or one that can be read. -/
theorem exists_levelAt_iff : (∃ l, levelAt settings = .ok l) ↔ NamesLevel settings := by
  unfold levelAt NamesLevel
  cases lookup? "level" settings with
  | none => simp
  | some v =>
    simp only [readLevel_eq_ok_iff, Option.some.injEq, forall_eq', mem_levelNames_iff]
    exact ⟨fun ⟨l, t, ht, hname⟩ => ⟨t, ht, l, hname⟩, fun ⟨t, ht, l, hname⟩ => ⟨l, t, ht, hname⟩⟩

theorem levelAt_eq_unshown_iff {fault : DisplayFault} :
    levelAt settings = .error (.unshownLevel fault) ↔
      ∃ v, lookup? "level" settings = some v ∧ v.shown = .error fault := by
  unfold levelAt
  cases lookup? "level" settings with
  | none => simp
  | some v =>
    simp only [Option.some.injEq, exists_eq_left']
    unfold readLevel
    cases v.shown with
    | error f => simp
    | ok t =>
      dsimp only
      cases LogLevel.ofName? t.toUpper <;> simp

theorem inSection_of_dictEntries? {v : Value} (h : v.dictEntries? = some settings) : v.inSection = settings := by
  cases v with
  | dict =>
    cases h
    exact inSection_dict settings
  | endless shape =>
    cases shape <;> cases h
    rfl
  | _ => cases h

/-- A level that cannot be shown stands in settings that are read. -/
theorem not_showsLevel_iff :
    ¬ ShowsLevel section? ↔
      ∃ settings, sectionEntries loggingName ["level", "file"] (section?.getD .null) = .ok settings ∧
        ∃ fault, levelAt settings = .error (.unshownLevel fault) := by
  simp only [levelAt_eq_unshown_iff, sectionEntries_eq_ok_iff]
  constructor
  · intro h
    simp only [ShowsLevel, not_forall] at h
    obtain ⟨v, settings, l, rfl, hsettings, hknown, hlevel, hshown⟩ := h
    have hin : v.inSection = settings := inSection_of_dictEntries? hsettings
    refine ⟨settings, ⟨fun _ => ?_, hin.symm ▸ hknown, hin.symm⟩, ?_⟩
    · rw [Option.getD_some, hsettings]
      rfl
    · cases hl : l.shown with
      | ok t => exact absurd ⟨t, hl⟩ hshown
      | error fault => exact ⟨fault, l, hlevel, hl⟩
  · rintro ⟨_, ⟨hdict, hknown, rfl⟩, fault, l, hlevel, hl⟩ hshows
    cases section? with
    | none => cases hlevel
    | some v =>
      rw [Option.getD_some] at hdict hknown hlevel
      -- An entry that counts as false gives no level.
      have htrue : v.isTrue = true := by
        by_contra hfalse
        rw [Value.inSection, if_neg hfalse] at hlevel
        cases hlevel
      obtain ⟨settings, hsettings⟩ := Option.isSome_iff_exists.mp (hdict htrue)
      rw [inSection_of_dictEntries? hsettings] at hknown hlevel
      obtain ⟨t, ht⟩ := hshows v settings l rfl hsettings hknown hlevel
      rw [hl] at ht
      cases ht

/-! ## Whole dictionaries -/

/-- The entries describe a configuration exactly if both sections are acceptable. -/
theorem exists_ofValue_iff (hdata : data.dictEntries? = some entries) :
    (∃ c, ofValue data = .ok c) ↔
      IsSection ["level", "file"] NamesLevel (lookup? "logging" entries) ∧
        IsSection ["base_dir"] (fun _ => True) (lookup? "storage" entries) := by
  have hnone : NamesLevel [] := nofun
  rw [← exists_sectionEntries_iff loggingName hnone, ← exists_sectionEntries_iff storageName trivial]
  -- Each section is read by itself, so the data is read if both of them are.
  simp only [← exists_levelAt_iff]
  constructor
  · rintro ⟨c, hc⟩
    obtain ⟨others, hothers, hlogging, hstorage, _, _⟩ := ofValue_eq_ok_iff.mp hc
    obtain rfl : entries = others := Option.some.inj (hdata.symm.trans hothers)
    obtain ⟨settings, hsettings, hlevel, _⟩ := readLogging_eq_ok_iff.mp hlogging
    obtain ⟨places, hplaces, _⟩ := readStorage_eq_ok_iff.mp hstorage
    exact ⟨⟨settings, hsettings, _, hlevel⟩, places, hplaces, trivial⟩
  · rintro ⟨⟨settings, hsettings, l, hlevel⟩, places, hplaces, _⟩
    have hlogging := readLogging_eq_ok_iff.mpr ⟨settings, hsettings, hlevel, rfl⟩
    have hstorage := readStorage_eq_ok_iff.mpr ⟨places, hplaces, rfl⟩
    exact ⟨⟨_, _, _, _, _⟩, ofValue_eq_ok_iff.mpr ⟨entries, hdata, hlogging, hstorage, rfl, rfl⟩⟩

/-- Settings without a level end reading. The section on storage is not come to. -/
theorem ofValue_of_levelAt (hdata : data.dictEntries? = some entries)
    (hsettings : sectionEntries loggingName ["level", "file"] (get "logging" entries) = .ok settings)
    {fault : ConfigFault} (hlevel : levelAt settings = .error fault) : ofValue data = .error fault := by
  rw [ofValue_of_dictEntries? hdata]
  refine bind_eq_error_iff.mpr (.inl ?_)
  rw [readLogging_eq]
  exact bind_eq_error_iff.mpr (.inr ⟨settings, hsettings, map_eq_error_iff.mpr hlevel⟩)

/-- Reading a dictionary ends at a level that cannot be shown exactly if it gives such a level. The section on
storage is not come to. -/
theorem exists_unshown_iff (hdata : data.dictEntries? = some entries) :
    (∃ fault, ofValue data = .error (.unshownLevel fault)) ↔ ¬ ShowsLevel (lookup? "logging" entries) := by
  rw [not_showsLevel_iff]
  constructor
  · rintro ⟨fault, h⟩
    rw [ofValue_of_dictEntries? hdata] at h
    rcases bind_eq_error_iff.mp h with h | ⟨p, _, h⟩
    · rw [readLogging_eq] at h
      rcases bind_eq_error_iff.mp h with h | ⟨settings, hsettings, h⟩
      · exact (isReport_of_sectionEntries h).elim
      · exact ⟨settings, hsettings, fault, map_eq_error_iff.mp h⟩
    · have hstorage := map_eq_error_iff.mp h
      rcases bind_eq_error_iff.mp hstorage with h | ⟨_, _, h⟩
      · exact (isReport_of_sectionEntries h).elim
      · cases h
  · rintro ⟨settings, hsettings, fault, hlevel⟩
    exact ⟨fault, ofValue_of_levelAt hdata hsettings hlevel⟩

theorem ofValue_of_oversized_level {n : Int} (h : Json.isOversized n) :
    ofValue (.dict [(.text "logging", .dict [(.text "level", .int n)])]) = .error (.unshownLevel .oversized) := by
  have hshown : (Value.int n).shown = .error .oversized := by
    rw [Value.shown, Value.display, Value.displayAt, Value.intText, if_pos h]
    all_goals nofun
  have hknown : Known ["level", "file"] [(.text "level", .int n)] := by simp [Known, Value.text?]
  exact ofValue_of_levelAt rfl (sectionEntries_dict hknown) (levelAt_eq_unshown_iff.mpr ⟨_, rfl, hshown⟩)

end Config

end CanonStore
