import CanonStore.Proofs.Config.Reread
import CanonStore.Proofs.Document.Refusal
import CanonStore.Proofs.Document.Storable

/-!
# Stored entries read back

An entry is stored under the octets of the dictionary that it turns into (`encode_entry_iff`), and it is loaded
from the dictionary that these octets are read as, which is an equal one (`exists_dict_of_encode_entry`). So an
entry comes back if its type reads equal dictionaries as equal entries. That holds of configurations that were
read from dictionaries, and of entries of a ledger. Main statement: `decode_encode_entry`.
-/

namespace CanonStore

/-- An entry of a ledger. -/
def Value.ledgerEntry (key version : Value) (tags : List Value) : Value :=
  .entry .ledgerEntry [("key", key), ("version", version), ("tags", .list tags)]

namespace Document

open Value (Same ofFields ledgerEntry)

variable {type : EntryType} {fields : List (Text × Value)} {entries others : List (Value × Value)}
  {bytes : Bytes} {path path' : Option Text} {v : Value}

/-! ## Entries and their dictionaries -/

/-- An entry is stored as the dictionary that it turns into. -/
theorem encode_entry_iff (htype : type.isStorable = true) (hdict : type.toDict fields = .ok (.dict entries)) :
    encode (.entry type fields) path = .ok bytes ↔ encode (.dict entries) path' = .ok bytes := by
  have hentry : payload (.entry type fields) path = requirePlain type.name (.dict entries) path := by
    rw [payload, htype, hdict]
    rfl
  have hpayload : ∀ w, payload (.entry type fields) path = .ok w ↔ payload (.dict entries) path' = .ok w := by
    intro w
    rw [hentry, requirePlain_eq_ok_iff]
    exact requirePlain_eq_ok_iff.symm
  simp only [encode_eq_ok_iff, hpayload]

/-- A document that is a dictionary is loaded as what the type reads from it. -/
theorem decode_entry_of_read (htype : type.hasOfDict = true) {j : Json} (h : Json.readBytes bytes = .ok j)
    (hj : j.toValue = .dict entries) (hv : type.ofDict entries = .ok v) (path : Option Text) :
    decode bytes (.entry type) path = .ok v := by
  have hname : (Target.entry type).name = .ok type.name := rfl
  rw [decode_of_read hname nofun h, hj, decodeAs, htype]
  simp only [Bool.not_true, Bool.false_eq_true, if_false, readEntry, hv, Except.mapError]

/-- What an entry is loaded from again: a dictionary equal to its own. -/
theorem exists_dict_of_encode_entry (htype : type.isStorable = true)
    (hdict : type.toDict fields = .ok (.dict entries)) (hentries : (Value.dict entries).Wellformed)
    (h : encode (.entry type fields) path = .ok bytes) :
    ∃ others, Same (.dict entries) (.dict others) ∧
      ∀ v, type.ofDict others = .ok v → ∀ path', decode bytes (.entry type) path' = .ok v := by
  have hstored : encode (.dict entries) none = .ok bytes := (encode_entry_iff htype hdict).mp h
  obtain ⟨j, hread, hsame⟩ := readBytes_of_encode (.inl ⟨_, rfl⟩) hentries hstored
  obtain ⟨others, hj, _⟩ := hsame.exists_dict
  have htaken : type.hasOfDict = true := (Bool.and_eq_true_iff.mp htype).2
  exact ⟨others, hj ▸ hsame, fun v hv => decode_entry_of_read htaken hread hj hv⟩

/-! ## Configurations -/

/-- A stored configuration is loaded as an equal one. -/
theorem decode_encode_config {data : Value} {c : Config} (hdata : data.Wellformed)
    (hc : Config.ofValue data = .ok c) (h : encode c.toValue path = .ok bytes) :
    ∃ d, c.Same d ∧ ∀ path', decode bytes (.entry .runtimeConfig) path' = .ok d.toValue := by
  have htype : EntryType.runtimeConfig.isStorable = true := rfl
  have hholds := Config.inherited_wellformed.holds hdata hc
  obtain ⟨others, hsame, hdecode⟩ := exists_dict_of_encode_entry htype rfl (Config.wellformed_toDict hholds) h
  obtain ⟨d, hd, hcd⟩ := hholds.normal.ofValue_of_same hsame
  refine ⟨d, hcd, hdecode _ ?_⟩
  rw [EntryType.ofDict, hd]

/-! ## Entries of a ledger -/

section Ledger

variable {key version : Value} {tags : List Value}

theorem nodup_ledgerNames : [Text.ofString "key", "version", "tags"].Nodup := by decide

/-- From an equal dictionary an entry of a ledger is read as it was. -/
theorem ofDict_ledgerEntry_of_same (hkey : key.text?.isSome) (hversion : version.number?.isSome)
    (htags : ∀ t ∈ tags, t.text?.isSome)
    (h : Same (ofFields [("key", key), ("version", version), ("tags", .list tags)]) (.dict others)) :
    EntryType.ledgerEntry.ofDict others = .ok (ledgerEntry key version tags) := by
  obtain ⟨_, hothers, _, hlookup⟩ := h.exists_entries nodup_ledgerNames
  cases hothers
  obtain ⟨key', hkey', hkeySame⟩ := hlookup "key" _ rfl
  obtain ⟨version', hversion', hversionSame⟩ := hlookup "version" _ rfl
  obtain ⟨list, hlist', hlistSame⟩ := hlookup "tags" _ rfl
  obtain ⟨tags', rfl, htagsSame⟩ := hlistSame.exists_list
  -- Texts and numbers that are equal are the same value, which does not hold of values in general.
  obtain rfl := hkeySame.eq_of_text? hkey
  obtain rfl := hversionSame.eq_of_number? hversion
  have htagsEq : tags = tags' := by
    apply List.forall₂_eq_eq_eq ▸ forall₂_imp_of_mem htagsSame
    intro t ht u htu
    exact (htu.eq_of_text? (htags t ht)).symm
  subst htagsEq
  simp only [EntryType.ofDict, hkey', hversion', hlist']
  rfl

/-- A stored entry of a ledger is loaded as it was. -/
theorem decode_encode_ledgerEntry (hkey : key.text?.isSome) (hversion : version.number?.isSome)
    (htags : ∀ t ∈ tags, t.text?.isSome) (h : encode (ledgerEntry key version tags) path = .ok bytes)
    (path' : Option Text) : decode bytes (.entry .ledgerEntry) path' = .ok (ledgerEntry key version tags) := by
  have htype : EntryType.ledgerEntry.isStorable = true := rfl
  have hwellformed : (ofFields [("key", key), ("version", version), ("tags", .list tags)]).Wellformed := by
    apply Value.wellformed_ofFields
    · exact nodup_ledgerNames
    · have hlist : (Value.list tags).Wellformed :=
        (Value.itemsWellformed_iff tags).mpr fun t ht => Value.wellformed_of_text? (htags t ht)
      simpa using ⟨Value.wellformed_of_text? hkey, Value.wellformed_of_number? hversion, hlist⟩
  obtain ⟨others, hsame, hdecode⟩ := exists_dict_of_encode_entry htype rfl hwellformed h
  exact hdecode _ (ofDict_ledgerEntry_of_same hkey hversion htags hsame) path'

end Ledger

/-- Whatever data a configuration is read from, its level is a known one, and it is read from its own dictionary
as it is. It is stored under the octets of this dictionary, and loaded as an equal one. Entries of a ledger whose
key and tags are texts and whose version is a number are loaded as they were stored. -/
theorem decode_encode_entry :
    (∀ data c, Config.ofValue data = .ok c →
      c.level.name ∈ [Text.ofString "DEBUG", "INFO", "WARNING", "ERROR", "CRITICAL"] ∧
        Config.ofValue c.toDict = .ok c ∧ (Config.ofValue c.toDict).map Config.toDict = .ok c.toDict ∧
        (∀ bytes path path', encode c.toValue path = .ok bytes ↔ encode c.toDict path' = .ok bytes) ∧
        (data.Wellformed → ∀ bytes path, encode c.toValue path = .ok bytes →
          ∃ d, c.Same d ∧ ∀ path', decode bytes (.entry .runtimeConfig) path' = .ok d.toValue)) ∧
      ∀ (key version : Value) (tags : List Value), key.text?.isSome → version.number?.isSome →
        (∀ t ∈ tags, t.text?.isSome) → ∀ bytes path, encode (ledgerEntry key version tags) path = .ok bytes →
          ∀ path', decode bytes (.entry .ledgerEntry) path' = .ok (ledgerEntry key version tags) := by
  constructor
  · intro data c hc
    have hreread : Config.ofValue c.toDict = .ok c := (Config.isNormal_of_ofValue hc).ofValue_toDict
    have htype : EntryType.runtimeConfig.isStorable = true := rfl
    refine ⟨?_, hreread, by rw [hreread]; rfl, fun bytes path path' => encode_entry_iff htype rfl, ?_⟩
    · cases c.level <;> decide
    · intro hdata bytes path h
      exact decode_encode_config hdata hc h
  · intro key version tags hkey hversion htags bytes path h
    exact decode_encode_ledgerEntry hkey hversion htags h

/-- A level in small letters, a debug setting that is a number, and extra settings that hold one. -/
theorem decode_encode_entry_small :
    ∃ c bytes octets,
      Config.ofValue (.dict [(.text "logging", .dict [(.text "level", .text "debug")]), (.text "debug", .int 1),
        (.text "extra", .dict [(.text "peers", .int 4)])]) = .ok c ∧
      c.level.name = Text.ofString "DEBUG" ∧ Config.ofValue c.toDict = .ok c ∧
      encode c.toValue none = .ok bytes ∧
      (∃ d, c.Same d ∧ decode bytes (.entry .runtimeConfig) none = .ok d.toValue) ∧
      encode (ledgerEntry (.text "account/alice") (.int 3) [.text "hot"]) none = .ok octets ∧
      decode octets (.entry .ledgerEntry) none
        = .ok (ledgerEntry (.text "account/alice") (.int 3) [.text "hot"]) := by
  obtain ⟨hconfig, hledger⟩ := decode_encode_entry
  have hc : Config.ofValue (.dict [(.text "logging", .dict [(.text "level", .text "debug")]),
      (.text "debug", .int 1), (.text "extra", .dict [(.text "peers", .int 4)])])
      = .ok ⟨.debug, .null, .null, .bool true, .dict [(.text "peers", .int 4)]⟩ := rfl
  obtain ⟨_, hreread, _, hstored, hloaded⟩ := hconfig _ _ hc
  have hint : ∀ n ∈ [(4 : Int), 3], (Value.int n).Storable := by
    simp only [Value.storable_int_iff]
    decide +kernel
  have hdict : ∃ bytes, encode (Config.toDict ⟨.debug, .null, .null, .bool true, .dict [(.text "peers", .int 4)]⟩)
      none = .ok bytes := by
    refine exists_encode_of_storable (.inl ⟨_, rfl⟩) ?_ (by decide)
    exact ⟨⟨⟨"logging", rfl, rfl⟩, ⟨⟨"level", rfl, rfl⟩, rfl⟩, ⟨⟨"file", rfl, rfl⟩, trivial⟩, trivial⟩,
      ⟨⟨"storage", rfl, rfl⟩, ⟨⟨"base_dir", rfl, rfl⟩, trivial⟩, trivial⟩, ⟨⟨"debug", rfl, rfl⟩, trivial⟩,
      ⟨⟨"extra", rfl, rfl⟩, ⟨⟨"peers", rfl, rfl⟩, hint 4 (by decide)⟩, trivial⟩, trivial⟩
  obtain ⟨bytes, hbytes⟩ := hdict
  have hentry := (hstored bytes none none).mpr hbytes
  obtain ⟨d, hd, hdecode⟩ := hloaded (by decide) bytes none hentry
  have hledgerDict : ∃ octets, encode (ofFields [("key", .text "account/alice"), ("version", .int 3),
      ("tags", .list [.text "hot"])]) none = .ok octets := by
    refine exists_encode_of_storable (.inl ⟨_, rfl⟩) ?_ (by decide)
    exact ⟨⟨⟨"key", rfl, rfl⟩, rfl⟩, ⟨⟨"version", rfl, rfl⟩, hint 3 (by decide)⟩,
      ⟨⟨"tags", rfl, rfl⟩, rfl, trivial⟩, trivial⟩
  obtain ⟨octets, hoctets⟩ := hledgerDict
  have htype : EntryType.ledgerEntry.isStorable = true := rfl
  have hledgerEntry : encode (ledgerEntry (.text "account/alice") (.int 3) [.text "hot"]) none = .ok octets :=
    (encode_entry_iff htype rfl).mpr hoctets
  refine ⟨_, bytes, octets, hc, rfl, hreread, hentry, ⟨d, hd, hdecode none⟩, hledgerEntry, ?_⟩
  exact hledger _ _ _ rfl rfl (List.forall_mem_singleton.mpr rfl) octets none hledgerEntry none

end Document

end CanonStore
