import CanonStore.Config
import CanonStore.Proofs.Value.Storable

/-!
# Configurations read section by section

A section is read if it counts as false, or if it is a dictionary and all of its keys are known
(`sectionEntries_eq_ok_iff`). `ofValue_of_dictEntries?` gives what a whole dictionary describes in terms of its
sections, and `ofValue_eq_ok_iff` when it describes a configuration. What holds of the dictionary and of its parts
holds of the settings (`Inherited.settings`).
-/

namespace CanonStore

/-- The entries of a section; a value that counts as false is an empty section. -/
def Value.inSection (v : Value) : List (Value × Value) := if v.isTrue then v.dictEntries?.getD [] else []

namespace Config

open Value (inSection lookup?)

/-! ## Sections -/

/-- All keys of the entries are texts that the section knows. -/
def Known (keys : List Text) (entries : List (Value × Value)) : Prop :=
  ∀ e ∈ entries, ∃ t ∈ keys, e.1.text? = some t

theorem sectionEntries_eq_ok_iff {record : Text} {keys : List Text} {v : Value}
    {entries : List (Value × Value)} :
    sectionEntries record keys v = .ok entries ↔
      (v.isTrue → v.dictEntries?.isSome) ∧ Known keys v.inSection ∧ entries = v.inSection := by
  unfold sectionEntries inSection
  -- What counts as false is an empty section, even if it is no dictionary.
  cases v.isTrue with
  | false =>
    have hnone : Known keys [] := List.forall_mem_nil _
    simp only [Bool.not_false, if_true, Except.ok.injEq, Bool.false_eq_true, if_false, false_imp_iff,
      hnone, true_and]
    exact eq_comm
  | true =>
    cases v.dictEntries? with
    | none => simp
    | some es =>
      -- Keys that are no text are looked for first, keys that are not known after that.
      have hknown : Known keys es ↔ (es.any fun e => e.1.text?.isNone) = false ∧
          es.find? (fun e => !(e.1.text?.any keys.contains)) = none := by
        rw [List.any_eq_false, List.find?_eq_none, ← forall₂_and]
        refine forall₂_congr fun e _ => ?_
        cases e.1.text? with
        | none => simp
        | some t => simp
      simp only [Bool.not_true, Bool.false_eq_true, if_false, if_true, Option.getD_some, Option.isSome_some,
        implies_true, true_and, hknown]
      cases es.any fun e => e.1.text?.isNone with
      | true => simp
      | false => cases es.find? fun e => !(e.1.text?.any keys.contains) <;> simp [eq_comm]

theorem inSection_dict (entries : List (Value × Value)) : inSection (.dict entries) = entries := by
  unfold inSection
  cases entries with
  | nil => rfl
  | cons e rest => rfl

theorem sectionEntries_dict {record : Text} {keys : List Text} {entries : List (Value × Value)}
    (h : Known keys entries) : sectionEntries record keys (.dict entries) = .ok entries := by
  rw [sectionEntries_eq_ok_iff, inSection_dict]
  exact ⟨fun _ => rfl, h, rfl⟩

/-- The level that a section names, or the usual one. -/
def levelAt (entries : List (Value × Value)) : Except ConfigFault LogLevel :=
  match lookup? "level" entries with
  | none => .ok .info
  | some v => readLevel v

theorem readLogging_eq (v : Value) :
    readLogging v = sectionEntries loggingName ["level", "file"] v >>= fun entries =>
      (levelAt entries).map fun l => (l, (lookup? "file" entries).getD .null) := by
  unfold readLogging levelAt
  apply bind_congr
  intro entries
  cases lookup? "level" entries with
  | none => rfl
  | some l => cases readLevel l <;> rfl

theorem readLogging_eq_ok_iff {v file : Value} {l : LogLevel} :
    readLogging v = .ok (l, file) ↔
      ∃ entries, sectionEntries loggingName ["level", "file"] v = .ok entries ∧ levelAt entries = .ok l ∧
        (lookup? "file" entries).getD .null = file := by
  rw [readLogging_eq, bind_eq_ok_iff]
  apply exists_congr
  intro entries
  apply and_congr_right'
  rw [map_eq_ok_iff]
  simp only [Prod.mk.injEq]
  exact ⟨fun ⟨_, hlevel, hl, hfile⟩ => ⟨hl ▸ hlevel, hfile⟩, fun ⟨hlevel, hfile⟩ => ⟨l, hlevel, rfl, hfile⟩⟩

theorem readStorage_eq_ok_iff {v baseDir : Value} :
    readStorage v = .ok baseDir ↔
      ∃ entries, sectionEntries storageName ["base_dir"] v = .ok entries ∧
        (lookup? "base_dir" entries).getD .null = baseDir := by
  unfold readStorage
  rw [bind_eq_ok_iff]
  apply exists_congr
  intro entries
  exact and_congr_right' (Iff.of_eq (Except.ok.injEq _ _))

theorem readLevel_text_eq_error_iff {t : Text} {fault : ConfigFault} :
    readLevel (.text t) = .error fault ↔
      LogLevel.ofName? t.toUpper = none ∧ fault = .unknownLevel t.toUpper := by
  have hshown : (Value.text t).shown = .ok t := rfl
  rw [readLevel, hshown]
  dsimp only
  cases LogLevel.ofName? t.toUpper with
  | none => simp [eq_comm]
  | some level => simp

/-! ## Dictionaries -/

/-- What entries describe. -/
theorem ofValue_of_dictEntries? {data : Value} {entries : List (Value × Value)}
    (h : data.dictEntries? = some entries) :
    ofValue data = readLogging (get "logging" entries) >>= fun p =>
      (readStorage (get "storage" entries)).map fun baseDir =>
        ⟨p.1, p.2, baseDir, .bool (get "debug" entries).isTrue,
          if (get "extra" entries).isTrue then get "extra" entries else .dict []⟩ := by
  have hstages : ofValue data = readLogging (get "logging" entries) >>= fun p =>
      readStorage (get "storage" entries) >>= fun baseDir =>
        .ok ⟨p.1, p.2, baseDir, .bool (get "debug" entries).isTrue,
          if (get "extra" entries).isTrue then get "extra" entries else .dict []⟩ := by
    cases data with
    | dict | endless =>
      unfold ofValue
      rw [h]
      rfl
    | _ => cases h
  rw [hstages]
  apply bind_congr
  intro p
  cases readStorage (get "storage" entries) <;> rfl

theorem ofValue_dict (entries : List (Value × Value)) :
    ofValue (.dict entries) = readLogging (get "logging" entries) >>= fun p =>
      (readStorage (get "storage" entries)).map fun baseDir =>
        ⟨p.1, p.2, baseDir, .bool (get "debug" entries).isTrue,
          if (get "extra" entries).isTrue then get "extra" entries else .dict []⟩ :=
  ofValue_of_dictEntries? rfl

/-- Data describe a configuration if they are a dictionary whose sections can be read. -/
theorem ofValue_eq_ok_iff {data : Value} {c : Config} :
    ofValue data = .ok c ↔
      ∃ entries, data.dictEntries? = some entries ∧
        readLogging (get "logging" entries) = .ok (c.level, c.logFile) ∧
        readStorage (get "storage" entries) = .ok c.baseDir ∧
        c.debug = .bool (get "debug" entries).isTrue ∧
        c.extra = if (get "extra" entries).isTrue then get "extra" entries else .dict [] := by
  constructor
  · intro h
    cases hentries : data.dictEntries? with
    | none =>
      unfold ofValue at h
      rw [hentries] at h
      split at h
      · -- Nothing is read from what is no dictionary.
        cases h
      · cases h
      · next hsome => cases hsome
    | some entries =>
      rw [ofValue_of_dictEntries? hentries, bind_eq_ok_iff] at h
      obtain ⟨⟨l, file⟩, hlogging, h⟩ := h
      obtain ⟨baseDir, hstorage, rfl⟩ := map_eq_ok_iff.mp h
      exact ⟨entries, rfl, hlogging, hstorage, rfl, rfl⟩
  · rintro ⟨entries, hentries, hlogging, hstorage, hdebug, hextra⟩
    rw [ofValue_of_dictEntries? hentries, hlogging]
    show (readStorage _).map _ = _
    rw [hstorage, ← hdebug, ← hextra]
    rfl

/-! ## What settings take over from dictionaries -/

/-- The property holds of null and of the empty dictionary, and passes from dictionaries to what they hold. -/
structure Inherited (P : Value → Prop) : Prop where
  null : P .null
  empty : P (.dict [])
  parts : ∀ {v : Value} {entries : List (Value × Value)}, v.dictEntries? = some entries → P v →
    ∀ e ∈ entries, P e.2

/-- A dictionary that holds itself holds nothing else, so only the other ones matter. -/
theorem Inherited.of_dict {P : Value → Prop} (hnull : P .null) (hempty : P (.dict []))
    (hdict : ∀ {entries : List (Value × Value)}, P (.dict entries) → ∀ e ∈ entries, P e.2) : Inherited P where
  null := hnull
  empty := hempty
  parts := by
    intro v entries hentries hv e he
    cases v with
    | dict =>
      cases hentries
      exact hdict hv e he
    | endless shape =>
      cases shape <;> cases hentries
      rw [List.mem_singleton.mp he]
      exact hv
    | _ => cases hentries

theorem inherited_plain : Inherited Value.Plain :=
  .of_dict trivial trivial fun h e he => ((Value.plain_dict_iff _).mp h e he).2

theorem inherited_wellformed : Inherited Value.Wellformed :=
  .of_dict trivial ⟨List.Pairwise.nil, trivial⟩ fun h => (Value.entriesWellformed_iff _).mp h.2

namespace Inherited

variable {P : Value → Prop} {entries : List (Value × Value)}

theorem get (hP : Inherited P) (h : ∀ e ∈ entries, P e.2) (key : Text) : P (get key entries) := by
  unfold Config.get lookup?
  cases hfind : entries.find? fun e => e.1.text? = some key with
  | none => exact hP.null
  | some e => exact h e (List.mem_of_find?_eq_some hfind)

theorem inSection (hP : Inherited P) {v : Value} (hv : P v) : ∀ e ∈ v.inSection, P e.2 := by
  unfold Value.inSection
  split
  · cases hentries : v.dictEntries? with
    | none => exact List.forall_mem_nil _
    | some entries => exact hP.parts hentries hv
  · exact List.forall_mem_nil _

/-- What holds of the data holds of every setting taken from them. -/
theorem settings (hP : Inherited P) {data : Value} {c : Config} (hdata : P data) (hc : ofValue data = .ok c) :
    P c.logFile ∧ P c.baseDir ∧ P c.extra := by
  obtain ⟨entries, hentries, hlogging, hstorage, _, hextra⟩ := ofValue_eq_ok_iff.mp hc
  have hparts : ∀ e ∈ entries, P e.2 := hP.parts hentries hdata
  refine ⟨?_, ?_, ?_⟩
  · obtain ⟨settings, hsection, _, hfile⟩ := readLogging_eq_ok_iff.mp hlogging
    obtain ⟨_, _, rfl⟩ := sectionEntries_eq_ok_iff.mp hsection
    exact hfile ▸ hP.get (hP.inSection (hP.get hparts _)) "file"
  · obtain ⟨settings, hsection, hbase⟩ := readStorage_eq_ok_iff.mp hstorage
    obtain ⟨_, _, rfl⟩ := sectionEntries_eq_ok_iff.mp hsection
    exact hbase ▸ hP.get (hP.inSection (hP.get hparts _)) "base_dir"
  · rw [hextra]
    split
    · exact hP.get hparts "extra"
    · exact hP.empty

end Inherited

end Config

end CanonStore
