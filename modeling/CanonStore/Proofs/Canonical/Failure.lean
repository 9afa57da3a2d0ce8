import CanonStore.Canonical.Digest
import CanonStore.Proofs.Value.Storable

/-!
# Values without a canonical form

A value that has no canonical form is reported, if it is `Orderly`: its moments have a date in UTC, its
keys can be shown, and it is not nested too deeply. Where one of these fails, canonicalization can end in
a fault that is no report, of its text, of its digest and of a comparison alike. A digest needs octets as well,
which a text with a surrogate does not have. Main statement: `canonical_reports`.
-/

namespace CanonStore

/-- The fault is a report of the kind. -/
def Fault.IsReport (kind : ReportKind) (fault : Fault) : Prop :=
  ∃ content cause, fault = .report kind content cause

theorem CanonicalFault.isReport_toFault_iff (fault : CanonicalFault) :
    fault.toFault.IsReport .canonicalization ↔ fault.isReport := by
  cases fault with
  | tooDeep | outOfCalendar | unshownKey =>
    refine iff_of_false ?_ Bool.false_ne_true
    rintro ⟨content, cause, h⟩
    cases h
  | _ => exact iff_of_true ⟨_, _, rfl⟩ rfl

/-! ## Orderly values -/

namespace Value

mutual

/-- Each moment of the value has a date in UTC, each key is a text or can be shown, and at most `depth`
containers and members lie inside one another, in the documents of records too. -/
def Orderly (depth : Nat) : Value → Prop
  | .moment m => m.toUtc?.isSome
  | .member _ v => 0 < depth ∧ Orderly (depth - 1) v
  | .list items | .tuple items => 0 < depth ∧ ItemsOrderly (depth - 1) items
  | .dict entries => 0 < depth ∧ EntriesOrderly (depth - 1) entries
  | .record type fields => ∀ j, type.dump fields = .ok j → j.toValue.nesting ≤ depth
  | .endless _ => False
  | _ => True

/-- All items are orderly. -/
def ItemsOrderly (depth : Nat) : List Value → Prop
  | [] => True
  | v :: rest => Orderly depth v ∧ ItemsOrderly depth rest

/-- All keys are texts or can be shown, and all values are orderly. -/
def EntriesOrderly (depth : Nat) : List (Value × Value) → Prop
  | [] => True
  | (k, v) :: rest => ((k.text?.isSome ∨ k.display?.isSome) ∧ Orderly depth v) ∧ EntriesOrderly depth rest

end

variable {depth : Nat}

theorem orderly_list_iff (items : List Value) :
    Orderly depth (.list items) ↔ 0 < depth ∧ ∀ v ∈ items, Orderly (depth - 1) v := by
  have hitems : ItemsOrderly (depth - 1) items ↔ ∀ v ∈ items, Orderly (depth - 1) v :=
    iff_forall_mem_of_cons (P := ItemsOrderly (depth - 1)) trivial (fun _ _ => Iff.rfl) items
  exact and_congr_right fun _ => hitems

theorem orderly_dict_iff (entries : List (Value × Value)) :
    Orderly depth (.dict entries) ↔
      0 < depth ∧ ∀ e ∈ entries, (e.1.text?.isSome ∨ e.1.display?.isSome) ∧ Orderly (depth - 1) e.2 := by
  have hentries : EntriesOrderly (depth - 1) entries ↔
      ∀ e ∈ entries, (e.1.text?.isSome ∨ e.1.display?.isSome) ∧ Orderly (depth - 1) e.2 :=
    iff_forall_mem_of_cons (P := EntriesOrderly (depth - 1)) trivial (fun _ _ => Iff.rfl) entries
  exact and_congr_right fun _ => hentries

end Value

/-! ## Where a tree fails -/

namespace Canonical

variable {depth : Nat} {place : Location} {fault : CanonicalFault}

theorem ofItems_eq_error {index : Nat} {vs : List Value} (h : ofItems depth place index vs = .error fault) :
    ∃ v ∈ vs, ∃ p, ofValueAt depth p v = .error fault := by
  induction vs generalizing index with
  | nil => cases h
  | cons v rest ih =>
    rcases walk_eq_error h with hv | hrest
    · exact ⟨v, List.mem_cons_self, _, hv⟩
    · obtain ⟨w, hw, hfault⟩ := ih hrest
      exact ⟨w, List.mem_cons_of_mem v hw, hfault⟩

theorem ofEntries_eq_error {es : List (Value × Value)} (h : ofEntries depth place es = .error fault) :
    ∃ e ∈ es, keyLabel place e.1 = .error fault ∨ ∃ p, ofValueAt depth p e.2 = .error fault := by
  induction es with
  | nil => cases h
  | cons e rest ih =>
    rcases bind_eq_error_iff.mp h with hk | ⟨l, _, h⟩
    · exact ⟨e, List.mem_cons_self, .inl hk⟩
    rcases walk_eq_error h with hv | hrest
    · exact ⟨e, List.mem_cons_self, .inr ⟨_, hv⟩⟩
    · obtain ⟨f, hf, hfault⟩ := ih hrest
      exact ⟨f, List.mem_cons_of_mem e hf, hfault⟩

/-- A key that is a text has a label. -/
theorem keyLabel_ne_error {k : Value} (h : k.text?.isSome) : keyLabel place k ≠ .error fault := by
  cases k with
  | text | textMember => exact fun h => nomatch h
  | _ => cases h

/-- A key that can be shown has a label, or it is reported. -/
theorem isReport_of_keyLabel {k : Value} (hk : k.text?.isSome ∨ k.display?.isSome)
    (h : keyLabel place k = .error fault) : fault.isReport := by
  rcases hk with htext | hshown
  · exact absurd h (keyLabel_ne_error htext)
  rw [keyLabel] at h
  split at h
  · cases h
  split at h
  · cases h
    rfl
  · next hdisplay =>
    rw [Value.display?, hdisplay] at hshown
    cases hshown
  · next hdisplay =>
    rw [Value.display?, hdisplay] at hshown
    cases hshown

theorem ofFloat_eq_error {x : Binary64} (h : ofFloat place x = .error fault) :
    fault = .nonFinite place x := by
  rw [ofFloat] at h
  split at h
  · cases h
  · exact (Except.error.inj h).symm

/-- A plain value that has no tree is nested too deeply, or holds a float that is not finite. -/
theorem fault_of_plain {v : Value} (hv : v.Plain) (h : ofValueAt depth place v = .error fault) :
    (fault = .tooDeep ∧ depth < v.nesting) ∨ ∃ p x, fault = .nonFinite p x := by
  induction v generalizing depth place with
  | null | bool | int | text => cases h
  | float x => exact .inr ⟨place, x, ofFloat_eq_error h⟩
  | list items ih =>
    rw [Value.plain_list_iff] at hv
    rw [← not_le, Value.nesting_list_le_iff]
    rcases guarded_eq_error_iff.mp h with ⟨hd, rfl⟩ | ⟨_, hitems⟩
    · exact .inl ⟨rfl, fun hn => hn.1.ne' hd⟩
    · obtain ⟨v, hmem, p, hfault⟩ := ofItems_eq_error hitems
      exact (ih v hmem (hv v hmem) hfault).imp_left (And.imp_right fun hlt hn => (hn.2 v hmem).not_gt hlt)
  | dict entries ih =>
    rw [Value.plain_dict_iff] at hv
    rw [← not_le, Value.nesting_dict_le_iff]
    rcases guarded_eq_error_iff.mp h with ⟨hd, rfl⟩ | ⟨_, hentries⟩
    · exact .inl ⟨rfl, fun hn => hn.1.ne' hd⟩
    -- A key that is no text could end in another fault.
    · obtain ⟨e, hmem, hkey | ⟨p, hfault⟩⟩ := ofEntries_eq_error hentries
      · exact absurd hkey (keyLabel_ne_error (hv e hmem).1)
      · exact ((ih e hmem).2 (hv e hmem).2 hfault).imp_left
          (And.imp_right fun hlt hn => (hn.2 e hmem).2.not_gt hlt)
  | _ => exact hv.elim

/-- Only nesting ends the tree of a plain value in a fault that is no report. -/
theorem isReport_of_plain {v : Value} (hv : v.Plain) (hn : v.nesting ≤ depth)
    (h : ofValueAt depth place v = .error fault) : fault.isReport := by
  rcases fault_of_plain hv h with ⟨_, hdeep⟩ | ⟨p, x, rfl⟩
  · exact absurd hn hdeep.not_ge
  · rfl

/-! ## Where an orderly value fails -/

theorem isReport_of_orderly_list {items : List Value} (hv : Value.Orderly depth (.list items))
    (ih : ∀ v ∈ items, ∀ p, v.Orderly (depth - 1) → ofValueAt (depth - 1) p v = .error fault →
      fault.isReport)
    (h : ofValueAt depth place (.list items) = .error fault) : fault.isReport := by
  rw [Value.orderly_list_iff] at hv
  rcases guarded_eq_error_iff.mp h with ⟨hd, _⟩ | ⟨_, hitems⟩
  · exact absurd hd hv.1.ne'
  · obtain ⟨v, hmem, p, hfault⟩ := ofItems_eq_error hitems
    exact ih v hmem p (hv.2 v hmem) hfault

/-- An orderly value without a tree is reported. -/
theorem isReport_of_orderly {v : Value} (hv : v.Orderly depth)
    (h : ofValueAt depth place v = .error fault) : fault.isReport := by
  induction v generalizing depth place with
  | null | bool | int | intMember | text | textMember | bytes | bytearray => cases h
  | date | entry | foreign =>
    cases h
    rfl
  -- A value that holds itself ends in a fault of the interpreter, and that is no report.
  | endless => exact hv.elim
  | float x =>
    obtain rfl := ofFloat_eq_error h
    rfl
  | moment m =>
    obtain ⟨u, hu⟩ := Option.isSome_iff_exists.mp hv
    rw [ofValueAt, Moment.canonicalText?, hu] at h
    cases h
  | member m v ih =>
    rw [ofValueAt, if_neg hv.1.ne'] at h
    exact ih hv.2 h
  | record type fields =>
    rw [ofValueAt] at h
    split at h
    · -- The document of a record is plain, and it has to be nested within the depth like any plain value.
      next j hj =>
      rw [← ofValueAt_toValue] at h
      exact isReport_of_plain (Value.plain_toValue j) (hv j hj) h
    · cases h
      rfl
  | list items ih => exact isReport_of_orderly_list hv (fun v hmem _ => ih v hmem) h
  | tuple items ih => exact isReport_of_orderly_list hv (fun v hmem _ => ih v hmem) h
  | dict entries ih =>
    rw [Value.orderly_dict_iff] at hv
    rcases guarded_eq_error_iff.mp h with ⟨hd, _⟩ | ⟨_, hentries⟩
    · -- Running out of depth would be no report, but there is some left.
      exact absurd hd hv.1.ne'
    · obtain ⟨e, hmem, hkey | ⟨p, hfault⟩⟩ := ofEntries_eq_error hentries
      · exact isReport_of_keyLabel (hv.2 e hmem).1 hkey
      · exact (ih e hmem).2 (hv.2 e hmem).2 hfault

end Canonical

/-! ## Texts, digests and comparison -/

namespace Value

variable {v w : Value} {t : Text} {fault : CanonicalFault}

/-- A value has no canonical text because it has no tree, or because of an integer that is too long. -/
theorem canonicalText_eq_error (h : v.canonicalText = .error fault) :
    Canonical.ofValue .root v = .error fault ∨ fault = .oversized v.typeName := by
  rcases bind_eq_error_iff.mp h with hcanon | ⟨c, _, hsize⟩
  · exact .inl hcanon
  · dsimp only at hsize
    split at hsize
    · cases hsize
      exact .inr rfl
    · cases hsize

/-- An orderly value that has no canonical text is reported. -/
theorem isReport_of_canonicalText (hv : v.Orderly Canonical.maxDepth) (h : v.canonicalText = .error fault) :
    fault.isReport := by
  rcases canonicalText_eq_error h with hcanon | rfl
  · exact Canonical.isReport_of_orderly hv hcanon
  · rfl

/-- A plain value that has no canonical text is nested too deeply, or holds a number that cannot be written. -/
theorem fault_of_canonicalText (hv : v.Plain) (h : v.canonicalText = .error fault) :
    fault = .tooDeep ∨ (∃ p x, fault = .nonFinite p x) ∨ fault = .oversized v.typeName := by
  rcases canonicalText_eq_error h with hcanon | hsize
  · rcases Canonical.fault_of_plain hv hcanon with ⟨hdeep, _⟩ | hfloat
    · exact .inl hdeep
    · exact .inr (.inl hfloat)
  · exact .inr (.inr hsize)

theorem canonicalDigest_of_octets (h : v.canonicalText = .ok t) {bytes : Bytes}
    (hbytes : Utf8.encode t = .ok bytes) : v.canonicalDigest = .ok (Digest.ofBytes bytes) := by
  simp only [canonicalDigest, h, Except.mapError, bind, Except.bind, hbytes, pure, Except.pure]

theorem canonicalDigest_of_surrogate (h : v.canonicalText = .ok t) {f : EncodingFault}
    (hbytes : Utf8.encode t = .error f) : v.canonicalDigest = .error (.plain .textEncoding f.message) := by
  simp only [canonicalDigest, h, Except.mapError, bind, Except.bind, hbytes]

theorem canonicalDigest_of_fault (h : v.canonicalText = .error fault) :
    v.canonicalDigest = .error fault.toFault := by
  rw [canonicalDigest, h]
  rfl

/-- An orderly value has a digest, or is reported to have none, exactly if no surrogate stands in its
canonical text. -/
theorem canonicalDigest_reports_iff (hv : v.Orderly Canonical.maxDepth) :
    ((∃ d, v.canonicalDigest = .ok d) ∨
        ∃ fault, v.canonicalDigest = .error fault ∧ fault.IsReport .canonicalization) ↔
      ∀ t, v.canonicalText = .ok t → ∀ c ∈ t, c.isSurrogate = false := by
  cases htext : v.canonicalText with
  | error fault =>
    rw [canonicalDigest_of_fault htext]
    have hreport := (CanonicalFault.isReport_toFault_iff fault).mpr (isReport_of_canonicalText hv htext)
    exact iff_of_true (.inr ⟨_, rfl, hreport⟩) (by simp)
  | ok t =>
    -- A digest needs the octets of the text, which a lone surrogate has not.
    cases hbytes : Utf8.encode t with
    | ok bytes =>
      apply iff_of_true (.inl ⟨_, canonicalDigest_of_octets htext hbytes⟩)
      intro u hu
      cases hu
      exact ((Utf8.encode_eq_ok_iff t bytes).mp hbytes).1
    | error f =>
      rw [canonicalDigest_of_surrogate htext hbytes]
      constructor
      · rintro (⟨d, h⟩ | ⟨_, h, content, cause, rfl⟩)
        · cases h
        · cases h
      · intro hclean
        have hok := (Utf8.encode_eq_ok_iff t _).mpr ⟨hclean t rfl, rfl⟩
        rw [hbytes] at hok
        cases hok

/-- Orderly values are always compared, and they are equal exactly if they have one canonical text. -/
theorem canonicalEquals_of_orderly (hv : v.Orderly Canonical.maxDepth) (hw : w.Orderly Canonical.maxDepth) :
    ∃ b, canonicalEquals v w = .ok b ∧
      (b = true ↔ ∃ t, v.canonicalText = .ok t ∧ w.canonicalText = .ok t) := by
  rw [canonicalEquals]
  cases hvt : v.canonicalText with
  | error fault =>
    dsimp only
    rw [if_pos (isReport_of_canonicalText hv hvt)]
    exact ⟨false, rfl, by simp⟩
  | ok t =>
    cases hwt : w.canonicalText with
    | error fault =>
      dsimp only
      rw [if_pos (isReport_of_canonicalText hw hwt)]
      exact ⟨false, rfl, by simp⟩
    | ok u => exact ⟨decide (t = u), rfl, by simp [eq_comm]⟩

/-- An orderly value has a canonical text, or it is reported to have none. So it is with its digest, if no
surrogate stands in the text, and two such values can always be compared: they are equal exactly if they
have one canonical text. -/
theorem canonical_reports (hv : v.Orderly Canonical.maxDepth) (hw : w.Orderly Canonical.maxDepth) :
    ((∃ t, v.canonicalText = .ok t) ∨
        ∃ fault, v.canonicalText = .error fault ∧ fault.toFault.IsReport .canonicalization) ∧
      (((∃ d, v.canonicalDigest = .ok d) ∨
          ∃ fault, v.canonicalDigest = .error fault ∧ fault.IsReport .canonicalization) ↔
        ∀ t, v.canonicalText = .ok t → ∀ c ∈ t, c.isSurrogate = false) ∧
      ∃ b, canonicalEquals v w = .ok b ∧
        (b = true ↔ ∃ t, v.canonicalText = .ok t ∧ w.canonicalText = .ok t) := by
  refine ⟨?_, canonicalDigest_reports_iff hv, canonicalEquals_of_orderly hv hw⟩
  cases htext : v.canonicalText with
  | ok t => exact .inl ⟨t, rfl⟩
  | error fault =>
    have hreport := isReport_of_canonicalText hv htext
    exact .inr ⟨fault, rfl, (CanonicalFault.isReport_toFault_iff fault).mpr hreport⟩

/-- A key that is no text beside a moment, and octets in a tuple. -/
theorem canonical_reports_entries :
    (dict [(.null, .moment ⟨⟨1, 1, 1⟩, 1, 0, 0, 0, some 3600⟩)]).Orderly Canonical.maxDepth ∧
      (tuple [.bytes [1, 2], .intMember ⟨"Level", "LOW"⟩ 1]).Orderly Canonical.maxDepth ∧
      ∃ b, canonicalEquals (dict [(.null, .moment ⟨⟨1, 1, 1⟩, 1, 0, 0, 0, some 3600⟩)])
        (tuple [.bytes [1, 2], .intMember ⟨"Level", "LOW"⟩ 1]) = .ok b := by
  have hv : (dict [(.null, .moment ⟨⟨1, 1, 1⟩, 1, 0, 0, 0, some 3600⟩)]).Orderly Canonical.maxDepth :=
    ⟨by decide, ⟨.inr rfl, rfl⟩, trivial⟩
  have hw : (tuple [.bytes [1, 2], .intMember ⟨"Level", "LOW"⟩ 1]).Orderly Canonical.maxDepth :=
    ⟨by decide, trivial, trivial, trivial⟩
  obtain ⟨_, _, b, hb, _⟩ := canonical_reports hv hw
  exact ⟨hv, hw, b, hb⟩

/-- The first moment of the calendar on a clock that runs ahead of UTC: neither its text nor its digest is
reported, and it cannot be compared. -/
theorem canonicalText_moment_not_reported :
    (moment ⟨⟨1, 1, 1⟩, 0, 0, 0, 0, some 3600⟩).canonicalText = .error .outOfCalendar ∧
      ¬ CanonicalFault.outOfCalendar.toFault.IsReport .canonicalization ∧
      (moment ⟨⟨1, 1, 1⟩, 0, 0, 0, 0, some 3600⟩).canonicalDigest
        = .error (.plain .overflow "date value out of range") ∧
      ∀ w, canonicalEquals (moment ⟨⟨1, 1, 1⟩, 0, 0, 0, 0, some 3600⟩) w = .error .outOfCalendar := by
  have htext : (moment ⟨⟨1, 1, 1⟩, 0, 0, 0, 0, some 3600⟩).canonicalText = .error .outOfCalendar := rfl
  refine ⟨htext, ?_, canonicalDigest_of_fault htext, ?_⟩
  · rw [CanonicalFault.isReport_toFault_iff]
    exact Bool.false_ne_true
  · intro w
    rw [canonicalEquals, htext]
    rfl

end Value

end CanonStore
