import CanonStore.Proofs.Base64
import CanonStore.Proofs.Calendar
import CanonStore.Proofs.Canonical.Text
import CanonStore.Proofs.Schema.Conforming

/-!
# Records and dictionaries of their fields

A record has a canonical text through the document that it dumps to, the dictionary of its fields through
the values themselves. Octets and moments have an encoder on either way, and these do not always agree:
`Value.SpelledAlike` says on which values they do. For record types whose fields hold no containers the two
canonical texts are one exactly if the encoders agree on every field (`canonicalText_asDict_iff`). That a record
holds what its type says is no restriction on where it comes from (`RecordType.Built.holds`).
-/

namespace CanonStore

/-- Both encoders give the value one text: octets one without a plus or a slash in standard base64, a moment
one that is given in UTC and has a year of four digits. -/
def Value.SpelledAlike : Value → Prop
  | .bytes b => ∀ c ∈ Base64.encode b, ¬ Base64.IsDisputed c
  | .moment m => m.offset = some 0 ∧ 1000 ≤ m.date.year
  | _ => True

instance : DecidablePred Value.SpelledAlike
  | .bytes b => inferInstanceAs (Decidable (∀ c ∈ Base64.encode b, ¬ Base64.IsDisputed c))
  | .moment m => inferInstanceAs (Decidable (m.offset = some 0 ∧ 1000 ≤ m.date.year))
  | .null | .bool _ | .int _ | .float _ | .text _ | .textMember _ _ | .intMember _ _ | .member _ _
  | .list _ | .tuple _ | .dict _ | .bytearray _ | .date _ | .record _ _ | .entry _ _ | .foreign _
  | .endless _ => .isTrue trivial

/-- The canonical form of the value at a place is the document. -/
def Value.Spells (depth : Nat) (place : Location) (v : Value) (j : Json) : Prop :=
  ∃ c, Canonical.ofValueAt depth place v = .ok c ∧ c.toJson = j

/-! ## One field -/

/-- The two ways of a value to a document: the one that it dumps to, and its canonical form. -/
structure TwoWays (v : Value) (j : Json) : Prop where
  dump : ∀ depth shape?, Dump.value true depth shape? v = .ok j
  spells : ∀ {depth place}, Json.Readable depth j → v.SpelledAlike → v.Spells depth place j
  readable : ∀ {depth place k}, v.Spells depth place k → k.hasOversized = false → Json.Readable depth j
  alike : ∀ {depth place k}, v.Spells depth place k → j.Same k → v.SpelledAlike

namespace TwoWays

theorem of_bytes (b : Bytes) : TwoWays (.bytes b) (.text (Base64.encodeWith Base64.urlSafe b)) where
  dump _ _ := rfl
  spells _ halike := by
    refine ⟨.text (.plain (Base64.encode b)), rfl, ?_⟩
    rw [(Base64.encodeWith_urlSafe_eq_iff b).mpr halike]
    rfl
  readable _ _ := trivial
  alike := by
    rintro depth place k ⟨c, hc, rfl⟩ hsame
    cases hc
    exact (Base64.encodeWith_urlSafe_eq_iff b).mp hsame

theorem of_moment {m : Moment} (hm : m.isValid) : TwoWays (.moment m) (.text m.isoText) where
  dump _ _ := rfl
  spells {depth place} _ halike := by
    have htext := (Moment.canonicalText?_eq_isoText_iff hm).mpr halike
    refine ⟨.text (.plain m.isoText), ?_, rfl⟩
    rw [Canonical.ofValueAt, htext]
  readable _ _ := trivial
  alike := by
    rintro depth place k ⟨c, hc, rfl⟩ hsame
    apply (Moment.canonicalText?_eq_isoText_iff hm).mp
    rw [Canonical.ofValueAt] at hc
    cases htext : m.canonicalText? with
    | none =>
      rw [htext] at hc
      cases hc
    | some t =>
      rw [htext] at hc
      cases hc
      exact congrArg some (Eq.symm hsame)

theorem of_float (x : Binary64) : TwoWays (.float x) (.float x) where
  dump depth shape? := by
    have hshaped : Dump.shapedFloat true shape? x = .float x := by
      unfold Dump.shapedFloat
      split
      · rfl
      · rfl
    exact congrArg Except.ok hshaped
  spells hread _ := ⟨.float x, if_pos hread, rfl⟩
  readable := by
    rintro depth place k ⟨c, hc, rfl⟩ _
    exact (Canonical.ofFloat_eq_ok hc).1
  alike _ _ := trivial

/-- Any other scalar goes both ways to the same document. -/
theorem of_same {v : Value} {c : Canonical}
    (hcanonical : ∀ depth place, Canonical.ofValueAt depth place v = .ok c)
    (hdump : ∀ depth shape?, Dump.value true depth shape? v = .ok c.toJson)
    (hread : ∀ depth, c.toJson.hasOversized = false → Json.Readable depth c.toJson)
    (halike : v.SpelledAlike) : TwoWays v c.toJson where
  dump := hdump
  spells {depth place} _ _ := ⟨c, hcanonical depth place, rfl⟩
  readable := by
    rintro depth place k ⟨d, hd, rfl⟩ hsize
    rw [hcanonical] at hd
    cases hd
    exact hread depth hsize
  alike _ _ := halike

end TwoWays

namespace Shape

/-- A field of the shape holds no container. -/
def isFlat : Shape → Bool
  | .mapping | .callable | .list _ | .record _ _ => false
  | _ => true

theorem exists_twoWays {s : Shape} (hs : s.isFlat) {inside : Value → Prop} {v : Value}
    (hv : s.Holds inside v) (hmoment : ∀ m, v = .moment m → m.isValid) : ∃ j, TwoWays v j := by
  -- Octets, moments and floats may be spelled in two ways; everything else has only one.
  cases s with
  | bytes =>
    obtain ⟨b, rfl⟩ := hv
    exact ⟨_, .of_bytes b⟩
  | moment =>
    obtain ⟨m, rfl⟩ := hv
    exact ⟨_, .of_moment (hmoment m rfl)⟩
  | float =>
    obtain ⟨x, rfl⟩ := hv
    exact ⟨_, .of_float x⟩
  | text =>
    obtain ⟨t, rfl⟩ := hv
    exact ⟨_, .of_same (c := .text (.plain t)) (fun _ _ => rfl) (fun _ _ => rfl) (fun _ _ => trivial)
      trivial⟩
  | bool =>
    obtain ⟨b, rfl⟩ := hv
    exact ⟨_, .of_same (c := .bool b) (fun _ _ => rfl) (fun _ _ => rfl) (fun _ _ => trivial) trivial⟩
  | int bounds =>
    obtain ⟨n, rfl, _⟩ := hv
    exact ⟨_, .of_same (c := .int n) (fun _ _ => rfl) (fun _ _ => rfl) (fun _ hsize => hsize) trivial⟩
  | optionalText =>
    obtain rfl | ⟨t, rfl⟩ := hv
    · exact ⟨_, .of_same (c := .null) (fun _ _ => rfl) (fun _ _ => rfl) (fun _ _ => trivial) trivial⟩
    · exact ⟨_, .of_same (c := .text (.plain t)) (fun _ _ => rfl) (fun _ _ => rfl) (fun _ _ => trivial)
      trivial⟩
  | option =>
    obtain ⟨⟨m, t⟩, _, rfl⟩ := hv
    exact ⟨_, .of_same (c := .text (.member m t)) (fun _ _ => rfl) (fun _ _ => rfl) (fun _ _ => trivial)
      trivial⟩
  | mapping | callable | list | record => cases hs

end Shape

/-! ## All fields -/

namespace RecordType

/-- The dictionary that maps the label of each field to the value that the field holds. -/
def asDict (type : RecordType) (fs : List (Text × Value)) : Value :=
  .dict ((type.fields.zip fs).map fun p => (.text p.1.label, p.2.2))

/-- The canonical text of a record is the document that it dumps to, as it is written. -/
theorem canonicalText_record_iff {type : RecordType} {fs : List (Text × Value)} {t : Text} :
    (Value.record type fs).canonicalText = .ok t ↔
      ∃ ms, Dump.fields type.isDurable (Dump.maxDepth - 1) type.fields fs = .ok ms ∧
        Json.Readable Canonical.maxDepth (.object ms) ∧ t = (Json.object ms).write := by
  rw [Value.canonicalText_eq_ok_iff]
  constructor
  · rintro ⟨c, hc, hsize, rfl⟩
    obtain ⟨j, hj, hc⟩ := Canonical.ofValueAt_record_eq_ok_iff.mp hc
    obtain ⟨_, ms, hms, rfl⟩ := Dump.value_record_eq_ok_iff.mp hj
    rw [Canonical.toJson_ofJson hc] at hsize ⊢
    exact ⟨ms, hms, Canonical.readable_ofJson hc hsize, rfl⟩
  · rintro ⟨ms, hms, hread, rfl⟩
    obtain ⟨c, hc⟩ := Canonical.exists_ofJson hread .root
    have hj : type.dump fs = .ok (.object ms) :=
      Dump.value_record_eq_ok_iff.mpr ⟨by decide, ms, hms, rfl⟩
    refine ⟨c, Canonical.ofValueAt_record_eq_ok_iff.mpr ⟨_, hj, hc⟩, ?_⟩
    rw [Canonical.toJson_ofJson hc]
    exact ⟨hread.hasOversized_eq_false, rfl⟩

/-- The canonical text of the dictionary of fields is written from the canonical form of each value. -/
theorem canonicalText_asDict_eq_ok_iff {type : RecordType} {fs : List (Text × Value)} {t : Text} :
    (type.asDict fs).canonicalText = .ok t ↔
      ∃ ms, List.Forall₂ (fun p m => p.1.label = m.1 ∧
          p.2.2.Spells (Canonical.maxDepth - 1) (Location.root.key (.plain p.1.label)) m.2)
          (type.fields.zip fs) ms ∧
        Json.Readable Canonical.maxDepth (.object ms) ∧ t = (Json.object ms).write := by
  rw [Value.canonicalText_eq_ok_iff]
  constructor
  · rintro ⟨c, hc, hsize, rfl⟩
    have hread := Canonical.readable_ofValueAt hc hsize
    obtain ⟨_, ns, hns, rfl⟩ := Canonical.ofValueAt_dict_eq_ok_iff.mp hc
    rw [Canonical.ofEntries_eq_ok_iff, List.forall₂_map_left_iff] at hns
    rw [Canonical.toJson_object] at hread ⊢
    refine ⟨_, ?_, hread, rfl⟩
    rw [List.forall₂_map_right_iff]
    apply hns.imp
    rintro p ⟨label, c⟩ ⟨hlabel, hc⟩
    obtain rfl : Label.plain p.1.label = label := Option.some.inj hlabel
    exact ⟨rfl, c, hc, rfl⟩
  · rintro ⟨ms, hms, hread, rfl⟩
    -- Each value has a tree of its own; the labels are those of the members.
    have hparts : ∃ ns : List (Label × Canonical),
        List.Forall₂ (fun p n => Label.ofValue? (.text p.1.label) = some n.1 ∧
          Canonical.ofValueAt (Canonical.maxDepth - 1) (Location.root.key n.1) p.2.2 = .ok n.2)
          (type.fields.zip fs) ns ∧
        List.Forall₂ (fun m n => id m = Prod.map Label.text Canonical.toJson n) ms ns := by
      apply exists_forall₂
      apply hms.imp
      rintro p ⟨_, _⟩ ⟨rfl, c, hc, rfl⟩
      exact ⟨(.plain p.1.label, c), ⟨rfl, hc⟩, rfl⟩
    obtain ⟨ns, hns, hjson⟩ := hparts
    have htree : Canonical.ofValue .root (type.asDict fs) = .ok (.object ns) := by
      refine Canonical.ofValueAt_dict_eq_ok_iff.mpr ⟨by decide, ns, ?_, rfl⟩
      rw [Canonical.ofEntries_eq_ok_iff, List.forall₂_map_left_iff]
      exact hns
    rw [← map_eq_map_iff_forall₂, List.map_id] at hjson
    rw [hjson, ← Canonical.toJson_object] at hread ⊢
    exact ⟨_, htree, hread.hasOversized_eq_false, rfl⟩

section Flat

variable {type : RecordType} {inside : Value → Prop} {fs : List (Text × Value)}

/-- A property of all values that a record holds, in terms of the fields that hold them. -/
theorem forall_mem_zip_iff (hfs : type.shape.Holds inside (.record type fs)) (P : Value → Prop) :
    (∀ p ∈ type.fields.zip fs, P p.2.2) ↔ ∀ f ∈ fs, P f.2 := by
  obtain ⟨_, heq, hfields⟩ := hfs
  cases heq
  have hlength := ((Shape.fieldsHold_iff _ _).mp hfields).length_eq
  have hsnd : (type.fields.zip fs).map Prod.snd = fs := List.map_snd_zip hlength.symm.le
  conv_rhs => rw [← hsnd, List.forall_mem_map]

/-- The document of a record whose fields hold no containers: a member for each field. -/
theorem exists_members (hflat : ∀ f ∈ type.fields, f.shape.isFlat)
    (hfs : type.shape.Holds inside (.record type fs))
    (hvalid : ∀ f ∈ fs, ∀ m, f.2 = .moment m → m.isValid) :
    ∃ ms : List (Text × Json),
      List.Forall₂ (fun p m => p.1.label = m.1 ∧ TwoWays p.2.2 m.2) (type.fields.zip fs) ms := by
  have hholds := hfs
  obtain ⟨_, heq, hfields⟩ := hholds
  cases heq
  apply exists_forall₂_of_forall
  intro p hp
  have hshape := (List.forall₂_iff_zip.mp ((Shape.fieldsHold_iff _ _).mp hfields)).2 hp
  obtain ⟨hfield, hvalue⟩ := List.of_mem_zip hp
  obtain ⟨j, hj⟩ := Shape.exists_twoWays (hflat _ hfield) hshape.2 (hvalid _ hvalue)
  exact ⟨(p.1.label, j), rfl, hj⟩

/-- The labels stay distinct when the members of a document take them. -/
theorem nodup_keys_of_labels {ms : List (Text × Json)}
    {R : FieldOf Shape × Text × Value → Text × Json → Prop}
    (hms : List.Forall₂ (fun p m => p.1.label = m.1 ∧ R p m) (type.fields.zip fs) ms) :
    (ms.map Prod.fst).Nodup := by
  have hkeys : (type.fields.zip fs).map (FieldOf.label ∘ Prod.fst) = ms.map Prod.fst :=
    map_eq_map_iff_forall₂.mpr (hms.imp fun _ _ h => h.1)
  rw [← hkeys, ← List.map_map]
  exact (Dump.nodup_labels type).sublist ((map_fst_zip_sublist _ _).map _)

/-- A record without containers and the dictionary of its fields have one canonical text exactly if the two
encoders agree on every field. -/
theorem canonicalText_asDict_iff_of_flat (hdurable : type.isDurable)
    (hflat : ∀ f ∈ type.fields, f.shape.isFlat) (hfs : type.shape.Holds inside (.record type fs))
    (hvalid : ∀ f ∈ fs, ∀ m, f.2 = .moment m → m.isValid) :
    (∀ t, (Value.record type fs).canonicalText = .ok t →
      ((type.asDict fs).canonicalText = .ok t ↔ ∀ f ∈ fs, f.2.SpelledAlike)) ∧
    ∀ u, (type.asDict fs).canonicalText = .ok u → ∃ t, (Value.record type fs).canonicalText = .ok t := by
  obtain ⟨ms, hms⟩ := exists_members hflat hfs hvalid
  have hdump : Dump.fields type.isDurable (Dump.maxDepth - 1) type.fields fs = .ok ms := by
    rw [Dump.fields_eq_ok_iff, hdurable]
    exact hms.imp fun _ _ h => ⟨h.1, h.2.dump _ _⟩
  -- The same values are dumped with the record and spelled in the dictionary, each under its label.
  rw [← forall_mem_zip_iff hfs Value.SpelledAlike]
  constructor
  · intro t ht
    obtain ⟨ms', hms', hread, rfl⟩ := canonicalText_record_iff.mp ht
    obtain rfl : ms = ms' := Except.ok.inj (hdump.symm.trans hms')
    have hvalues := ((Json.readable_object_iff _ _).mp hread).2
    rw [canonicalText_asDict_eq_ok_iff]
    constructor
    · -- Equal texts are of the same document, so the members of each label agree.
      rintro ⟨ks, hks, hread', hwrite⟩ p hp
      have hsame := Json.same_of_write_eq hread.loads hread'.loads hwrite
      obtain ⟨⟨_, j⟩, hm, rfl, hways⟩ := exists_of_mem_left hms hp
      obtain ⟨⟨_, k⟩, hk, rfl, hspells⟩ := exists_of_mem_left hks hp
      exact hways.alike hspells (Json.same_of_mem hsame (nodup_keys_of_labels hks) hm hk)
    · intro halike
      refine ⟨ms, ?_, hread, rfl⟩
      apply forall₂_imp_of_mem (forall₂_and_mem hms)
      rintro p hp m ⟨⟨hlabel, hways⟩, hm⟩
      exact ⟨hlabel, hways.spells (hvalues m hm) (halike p hp)⟩
  · intro u hu
    obtain ⟨ks, hks, hread, _⟩ := canonicalText_asDict_eq_ok_iff.mp hu
    have hvalues := ((Json.readable_object_iff _ _).mp hread).2
    refine ⟨_, canonicalText_record_iff.mpr ⟨ms, hdump, ?_, rfl⟩⟩
    refine (Json.readable_object_iff _ _).mpr ⟨by decide, ?_⟩
    intro m hm
    obtain ⟨p, hp, _, hways⟩ := exists_of_mem_right hms hm
    obtain ⟨k, hk, _, hspells⟩ := exists_of_mem_left hks hp
    exact hways.readable hspells (hvalues k hk).hasOversized_eq_false

/-- A transaction or an event and the dictionary of its fields have one canonical text exactly if the two
encoders agree on every field; otherwise each has a text of its own, or the dictionary has none. Where the
record has no canonical text, the dictionary has none either. -/
theorem canonicalText_asDict_iff (htype : type = .transaction ∨ type = .event)
    (hfs : type.shape.Holds inside (.record type fs))
    (hvalid : ∀ f ∈ fs, ∀ m, f.2 = .moment m → m.isValid) :
    (∀ t, (Value.record type fs).canonicalText = .ok t →
      ((type.asDict fs).canonicalText = .ok t ↔ ∀ f ∈ fs, f.2.SpelledAlike)) ∧
    ∀ u, (type.asDict fs).canonicalText = .ok u → ∃ t, (Value.record type fs).canonicalText = .ok t := by
  rcases htype with rfl | rfl
  · exact canonicalText_asDict_iff_of_flat rfl (by decide) hfs hvalid
  · exact canonicalText_asDict_iff_of_flat rfl (by decide) hfs hvalid

end Flat

/-- An event at the end of a leap day, in UTC. -/
theorem canonicalText_asDict_iff_leap_day :
    ∃ fs : List (Text × Value),
      fs = ([("at", .moment ⟨⟨2024, 2, 29⟩, 23, 59, 59, 5, some 0⟩), ("active", .bool true)] :
        List (Text × Value)) ∧
      (event.asDict fs).canonicalText =
        .ok "\x7b\"active\":true,\"at\":\"2024-02-29T23:59:59.000005Z\"\x7d" := by
  -- The event was made for another moment, which was set right afterwards.
  have hmake : event.make [("at", .moment ⟨⟨2024, 3, 1⟩, 0, 0, 0, 0, none⟩)] =
      .ok (.record event [("at", .moment ⟨⟨2024, 3, 1⟩, 0, 0, 0, 0, none⟩), ("active", .bool true)]) := rfl
  have hassign : event.assign "at" (.moment ⟨⟨2024, 2, 29⟩, 23, 59, 59, 5, some 0⟩)
        [("at", .moment ⟨⟨2024, 3, 1⟩, 0, 0, 0, 0, none⟩), ("active", .bool true)] =
      .ok [("at", .moment ⟨⟨2024, 2, 29⟩, 23, 59, 59, 5, some 0⟩), ("active", .bool true)] := rfl
  have hbuilt : event.Built (fun _ => True) _ := .make ⟨nofun, by
    rintro _ ⟨⟩
    exact ⟨fun _ _ => trivial, fun _ _ => trivial, trivial⟩⟩ hmake
  have hfs := (hbuilt.assign (List.forall_mem_cons.mpr ⟨trivial, List.forall_mem_singleton.mpr trivial⟩) hassign).holds
  refine ⟨_, rfl, ((canonicalText_asDict_iff (.inr rfl) hfs ?_).1 _ ?_).mpr ?_⟩
  · simp only [List.forall_mem_cons, Value.moment.injEq, forall_eq']
    exact ⟨rfl, nofun, nofun⟩
  · exact canonicalText_record_iff.mpr ⟨_, rfl, ⟨by decide, trivial, trivial, trivial⟩, by decide +kernel⟩
  · decide

/-- The payload of a transaction is spelled with a hyphen and an underscore in the record, with a plus and a
slash in the dictionary. -/
theorem canonicalText_asDict_ne_payload :
    ∃ (fs : List (Text × Value)) (t u : Text),
      fs = ([("tx_id", .text "t"), ("payload", .bytes [0xFB, 0xFF]), ("amount", .int 0),
        ("fee", .float .zero)] : List (Text × Value)) ∧
      t = "\x7b\"amount\":0,\"fee\":0.0,\"payload\":\"-_8=\",\"tx_id\":\"t\"\x7d" ∧
      u = "\x7b\"amount\":0,\"fee\":0.0,\"payload\":\"+/8=\",\"tx_id\":\"t\"\x7d" ∧
      transaction.shape.Holds (fun _ => True) (.record .transaction fs) ∧
      (Value.record .transaction fs).canonicalText = .ok t ∧
      (transaction.asDict fs).canonicalText = .ok u ∧ t ≠ u := by
  have hsize : Json.isOversized 0 = false := by
    rw [Json.isOversized_eq_false_iff, Int.natAbs_zero, Numeral.length_lt_ten (by decide)]
    decide
  have hread : ∀ payload : Text, Json.Readable Canonical.maxDepth (.object [("tx_id", .text "t"),
      ("payload", .text payload), ("amount", .int 0), ("fee", .float .zero)]) :=
    fun _ => ⟨by decide, trivial, trivial, hsize, rfl, trivial⟩
  refine ⟨_, _, _, rfl, rfl, rfl, ?_, ?_, ?_, by decide⟩
  · exact ⟨_, rfl, _, _, rfl, ⟨_, rfl⟩, _, _, rfl, ⟨_, rfl⟩, _, _, rfl, ⟨_, rfl, by decide⟩,
      _, _, rfl, ⟨_, rfl⟩, rfl⟩
  · exact canonicalText_record_iff.mpr ⟨_, rfl, hread _, by decide +kernel⟩
  · refine canonicalText_asDict_eq_ok_iff.mpr ⟨_, ?_, hread "+/8=", by decide +kernel⟩
    exact .cons ⟨rfl, _, rfl, rfl⟩ (.cons ⟨rfl, _, rfl, rfl⟩ (.cons ⟨rfl, _, rfl, rfl⟩
      (.cons ⟨rfl, _, rfl, rfl⟩ .nil)))

end RecordType

end CanonStore
