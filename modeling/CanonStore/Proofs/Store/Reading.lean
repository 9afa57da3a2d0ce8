import CanonStore.Proofs.Document.Encoding
import CanonStore.Proofs.Store.Run

/-!
# Octets and values read through the same path

Octets are read through the normal text of a path, values through the path as it is written. The two lead to
the same file where the path can name one as it is written (`NamesFile`): where it is not too long, and ends
with a name, not in a slash or a point. Any other path reads no value, whatever its normal text reads.
`loadValue_agrees` says what a value is read as, and what is reported, for every path.
-/

namespace CanonStore

namespace FileSystem

open PathName
open FilePath (NamesFile)

variable {fs : FileSystem} {path : Text}

/-! ## Reading a file -/

theorem openFile_of_check (h : FilePath.check path = .ok ()) (purpose : Purpose) :
    fs.openFile purpose path =
      ((fs.search path).bind (fs.openAt purpose)).mapError fun r => .system (r.ofPath path) := by
  rw [openFile, locate, h]
  cases fs.search path with
  | error r => rfl
  | ok d => rfl

/-- The system refuses to read the file. -/
def RefusesRead (fs : FileSystem) (path : Text) : Prop := ∃ fault, (fs.readFile path).1 = .error (.system fault)

theorem refusesRead_of_openFile {fault : SystemFault}
    (h : fs.openFile .read path = .error (.system fault)) : fs.RefusesRead path := by
  unfold RefusesRead readFile
  rw [h]
  exact ⟨fault, rfl⟩

theorem check_of_openFile {purpose : Purpose} {o : Handle × FileSystem}
    (h : fs.openFile purpose path = .ok o) : FilePath.check path = .ok () := by
  rw [openFile, bind_eq_ok_iff] at h
  obtain ⟨d, hlocate, _⟩ := h
  exact (locate_eq_ok_iff.mp hlocate).1

/-- Only a path that the system can be asked for is read, or refused by the system. -/
theorem check_of_readFile (h : (∃ octets, (fs.readFile path).1 = .ok octets) ∨ fs.RefusesRead path) :
    FilePath.check path = .ok () := by
  cases hopen : fs.openFile .read path with
  | ok o => exact check_of_openFile hopen
  | error fault =>
    cases hcheck : FilePath.check path with
    | ok => rfl
    | error other =>
      -- The check fails before the system is asked, and with a fault of its own.
      have hread : (fs.readFile path).1 = .error other := by
        unfold readFile
        rw [openFile, locate, hcheck]
        rfl
      rcases h with ⟨octets, hok⟩ | ⟨refusal, hrefused⟩
      · cases hread.symm.trans hok
      · cases hread.symm.trans hrefused
        unfold FilePath.check at hcheck
        split at hcheck
        · cases hcheck
        · split at hcheck <;> cases hcheck

theorem exists_readRefusal? {d : Destination} (h : d.asDirectory = true ∨ fs.IsDirectory d.place) :
    ∃ r, fs.readRefusal? d = some r := by
  unfold readRefusal?
  dsimp only
  split
  · next r _ => exact ⟨r, rfl⟩
  · split
    · exact ⟨.isDirectory, rfl⟩
    · exact ⟨.denied, rfl⟩
  · next n hne hlook =>
    have hdir : d.asDirectory = true := by
      refine h.resolve_right ?_
      rintro ⟨mode, hmode⟩
      have hnode := (lookFor_eq_ok_iff.mp hlook).2
      exact hne mode (Option.some.inj (hnode.symm.trans hmode))
    exact ⟨.notDirectory, if_pos hdir⟩

/-- A path that cannot name a file reads none. -/
theorem refusesRead_of_not_namesFile (fs : FileSystem) (hcheck : FilePath.check path = .ok ())
    (h : ¬ NamesFile path) : fs.RefusesRead path := by
  -- The path itself is one that the system takes, so what is refused is the search or the opening.
  suffices hopen : ∃ r, (fs.search path).bind (fs.openAt .read) = .error r by
    obtain ⟨r, hr⟩ := hopen
    have hrefused : fs.openFile .read path = .error (.system (r.ofPath path)) := by
      rw [openFile_of_check hcheck, hr]
      rfl
    exact refusesRead_of_openFile hrefused
  cases hsearch : fs.search path with
  | error r => exact ⟨r, rfl⟩
  | ok d =>
    have hdirectory : d.asDirectory = true ∨ fs.IsDirectory d.place := by
      by_contra hnot
      rw [not_or, Bool.not_eq_true] at hnot
      exact h (namesFile_of_search hsearch hnot.1 hnot.2)
    obtain ⟨r, hr⟩ := exists_readRefusal? hdirectory
    refine ⟨r, ?_⟩
    show fs.openAt .read d = .error r
    unfold openAt
    rw [hr]

/-- A path that can name a file reads what its normal text reads. -/
theorem readFile_normalText (fs : FileSystem) (hcheck : FilePath.check path = .ok ()) (h : NamesFile path) :
    (∀ octets, (fs.readFile (normalText path)).1 = .ok octets ↔ (fs.readFile path).1 = .ok octets) ∧
      (fs.RefusesRead (normalText path) ↔ fs.RefusesRead path) := by
  have hnormal := FilePath.check_normalText h.properNames_ne_nil hcheck
  have hsearch := fs.search_normalText h
  unfold RefusesRead readFile
  rw [openFile_of_check hnormal, openFile_of_check hcheck, hsearch]
  -- The two open the same file or none, so they can only differ in the path that a refusal to open tells.
  cases (fs.search path).bind (fs.openAt .read) with
  | error r => exact ⟨fun octets => iff_of_false nofun nofun, iff_of_true ⟨_, rfl⟩ ⟨_, rfl⟩⟩
  | ok o => exact ⟨fun octets => Iff.rfl, Iff.rfl⟩

end FileSystem

/-! ## Loading -/

/-- The operation ends in a report of the kind. -/
def Effect.Reports {α : Type} (kind : ReportKind) (e : Effect α) : Prop :=
  ∃ fault, e.result = .error fault ∧ fault.IsReport kind

/-- What reading a document reports is on the document. -/
theorem Document.kind_eq_of_decode {bytes : Bytes} {target : Target} {path : Option Text} {fault : Fault}
    {kind : ReportKind} (h : decode bytes target path = .error fault) (hreport : fault.IsReport kind) :
    kind = .decode := by
  -- A fault is a report of one kind only, so it is enough that it is one of decoding.
  have hunique : fault.IsReport .decode → kind = .decode := by
    rintro ⟨content, cause, rfl⟩
    obtain ⟨_, _, heq⟩ := hreport
    cases heq
    rfl
  cases hname : target.name with
  | error f =>
    rw [decode, hname] at h
    cases h
    exact absurd hreport (not_isReport_display f kind)
  | ok name =>
    by_cases hrecord : ∃ type, target = .record type
    · obtain ⟨type, rfl⟩ := hrecord
      rcases decode_record_cases type bytes path with ⟨v, hv⟩ | ⟨other, hother, hdecode⟩
      · cases h.symm.trans hv
      · cases h.symm.trans hother
        exact hunique hdecode
    · have hne : ∀ type, target ≠ .record type := fun type heq => hrecord ⟨type, heq⟩
      rcases decode_cases hname hne bytes path with ⟨_, v, _, _, hv⟩ | ⟨_, hdeep⟩ | ⟨other, hother, hdecode⟩
      · cases h.symm.trans hv
      · cases h.symm.trans hdeep
        exact absurd hreport (not_isReport_tooDeep kind)
      · cases h.symm.trans hother
        exact hunique hdecode

namespace Store

open FileSystem
open FilePath (NamesFile)

variable {fs : FileSystem} {path : Text}

/-- Only refusals of the system are reported. -/
theorem eq_of_fail_reports {α : Type} {files : FileSystem} {source what path : Text} {kind other : ReportKind}
    {fault : FileFault}
    (h : (fail (α := α) files source kind what path fault).Reports other) :
    other = kind ∧ ∃ f, fault = .system f := by
  obtain ⟨_, heq, content, cause, hreport⟩ := h
  cases fault with
  | system f =>
    cases heq
    cases hreport
    exact ⟨rfl, f, rfl⟩
  | unencodable | nullByte | endless =>
    cases heq
    cases hreport

theorem fail_reports_iff {α : Type} {files : FileSystem} {source what path : Text} {kind : ReportKind}
    {fault : FileFault} :
    (fail (α := α) files source kind what path fault).Reports kind ↔ ∃ f, fault = .system f := by
  constructor
  · intro h
    exact (eq_of_fail_reports h).2
  · rintro ⟨f, rfl⟩
    exact ⟨_, rfl, _, _, rfl⟩

theorem kind_eq_of_about {kind other : ReportKind} {what path : Text} {keepDetails : Bool} {fault : Fault}
    (hfault : fault.IsReport other → other = kind)
    (h : (about kind what path keepDetails fault).IsReport other) : other = kind := by
  cases fault with
  | report inner content cause =>
    unfold about at h
    dsimp only at h
    split at h
    · obtain ⟨_, _, heq⟩ := h
      cases heq
      rfl
    · exact hfault h
  | _ => exact hfault h

theorem load_eq_ok_iff {octets : Bytes} :
    (load fs path).result = .ok octets ↔ (fs.readFile (PathName.normalText path)).1 = .ok octets := by
  unfold load
  rcases fs.readFile (PathName.normalText path) with ⟨fault | found, files⟩
  · exact iff_of_false (fun h => (fail_eq _ _ _ _ _ _).1 ⟨octets, h⟩) nofun
  · simp only [Except.ok.injEq]

theorem load_reports_iff : (load fs path).Reports .storage ↔ fs.RefusesRead (PathName.normalText path) := by
  unfold load RefusesRead
  rcases fs.readFile (PathName.normalText path) with ⟨fault | found, files⟩
  · simpa using fail_reports_iff
  · exact iff_of_false (fun ⟨_, h, _⟩ => nomatch h) (fun ⟨_, h⟩ => nomatch h)

theorem loadValue_eq_ok_iff {target : Document.Target} {v : Value} :
    (loadValue fs path target).result = .ok v ↔
      ∃ octets, (fs.readFile path).1 = .ok octets ∧ Document.decode octets target none = .ok v := by
  unfold loadValue
  rcases fs.readFile path with ⟨fault | found, files⟩
  · exact iff_of_false (fun h => (fail_eq _ _ _ _ _ _).1 ⟨v, h⟩) (fun ⟨_, h, _⟩ => nomatch h)
  · simp only [Except.ok.injEq, exists_eq_left']
    cases Document.decode found target none with
    | error fault => simp
    | ok w => simp

theorem loadValue_reports_iff {target : Document.Target} :
    (loadValue fs path target).Reports .fileOpen ↔ fs.RefusesRead path := by
  unfold loadValue RefusesRead
  rcases fs.readFile path with ⟨fault | found, files⟩
  · simpa using fail_reports_iff
  · refine iff_of_false ?_ (fun ⟨_, h⟩ => nomatch h)
    rintro ⟨fault, heq, hreport⟩
    dsimp only at heq
    split at heq
    · next cause hdecode =>
      cases heq
      exact nomatch kind_eq_of_about (Document.kind_eq_of_decode hdecode) hreport
    · cases heq

/-- A value is read as what the octets are read as that are loaded, where the path can name a file as it is
written, and not at all elsewhere. The file is reported as one that does not open exactly if the octets cannot be
loaded, or the path cannot name a file as it is written. -/
theorem loadValue_agrees (fs : FileSystem) (path : Text) (target : Document.Target) :
    (∀ v, (loadValue fs path target).result = .ok v ↔
      NamesFile path ∧ ∃ octets, (load fs path).result = .ok octets ∧
        Document.decode octets target none = .ok v) ∧
    ((loadValue fs path target).Reports .fileOpen ↔
      (load fs path).Reports .storage ∨ FilePath.check path = .ok () ∧ ¬ NamesFile path) := by
  simp only [loadValue_eq_ok_iff, load_eq_ok_iff, loadValue_reports_iff, load_reports_iff]
  by_cases hcheck : FilePath.check path = .ok ()
  · by_cases hnames : NamesFile path
    · obtain ⟨hread, hrefuses⟩ := fs.readFile_normalText hcheck hnames
      simp only [hread, hrefuses, hnames, true_and, not_true, and_false, or_false, implies_true, iff_self,
        and_self]
    · have hrefuses := fs.refusesRead_of_not_namesFile hcheck hnames
      refine ⟨fun v => iff_of_false ?_ (fun h => hnames h.1), iff_of_true hrefuses (.inr ⟨hcheck, hnames⟩)⟩
      rintro ⟨octets, hok, _⟩
      obtain ⟨fault, hfault⟩ := hrefuses
      cases hfault.symm.trans hok
  · -- Neither text is a path, so nothing is read and the system is not asked.
    have hnormal : FilePath.check (PathName.normalText path) ≠ .ok () :=
      fun h => hcheck (FilePath.check_of_check_normalText h)
    refine ⟨fun v => iff_of_false ?_ ?_, iff_of_false (fun h => hcheck (check_of_readFile (.inr h))) ?_⟩
    · rintro ⟨octets, hok, _⟩
      exact hcheck (check_of_readFile (.inl ⟨octets, hok⟩))
    · rintro ⟨_, octets, hok, _⟩
      exact hnormal (check_of_readFile (.inl ⟨octets, hok⟩))
    · rintro (hrefuses | ⟨h, _⟩)
      · exact hnormal (check_of_readFile (.inr hrefuses))
      · exact hcheck h

/-- The octets of a file are loaded through its path with a slash at the end, but no value is. -/
theorem loadValue_slash_ne :
    ∃ files : FileSystem, files = (fresh ["home"] 0o22).put ["home", "f"] (.file [0x7B, 0x7D] 0o644) ∧
      (load files "f/").result = .ok [0x7B, 0x7D] ∧
      Document.decode [0x7B, 0x7D] .dict none = .ok (.dict []) ∧
      (∀ v, (loadValue files "f/" .dict).result ≠ .ok v) ∧
      (loadValue files "f/" .dict).Reports .fileOpen ∧ ¬ (load files "f/").Reports .storage := by
  have hload : (load ((fresh ["home"] 0o22).put ["home", "f"] (.file [0x7B, 0x7D] 0o644)) "f/").result =
      .ok [0x7B, 0x7D] := rfl
  have hread : Json.readUnmarked (Json.write (.object [])) = .ok (.object []) :=
    Json.readUnmarked_write ⟨by decide, trivial⟩ ⟨List.nodup_nil, trivial⟩
  -- The octets are read under the normal text of the path, which has lost the slash; the value under the
  -- path as it is.
  have hslash : ¬ NamesFile "f/" := fun h => absurd h.endsInSlash_eq (by decide)
  have hreports : (loadValue ((fresh ["home"] 0o22).put ["home", "f"] (.file [0x7B, 0x7D] 0o644)) "f/"
      .dict).Reports .fileOpen :=
    loadValue_reports_iff.mpr (refusesRead_of_not_namesFile _ (by decide) hslash)
  refine ⟨_, rfl, hload, ?_, ?_, hreports, ?_⟩
  · have hname : Document.Target.dict.name = .ok "dict" := rfl
    have hne : ∀ type, Document.Target.dict ≠ .record type := by simp
    exact Document.decode_of_read hname hne (Json.readBytes_eq_ok_iff.mpr ⟨_, rfl, hread⟩)
  · intro v hv
    obtain ⟨fault, hfault, _⟩ := hreports
    cases hfault.symm.trans hv
  · rintro ⟨fault, hfault, _⟩
    cases hfault.symm.trans hload

end Store

end CanonStore
