import CanonStore.Proofs.Document.Failure
import CanonStore.Proofs.Store.Reading

/-!
# Which stage is reported how

An operation of the store goes through its stages in order: a file is opened, a value encoded, octets written;
or a file is read and a value decoded. `Operation.Fails` lists the stages with the kind under which the failure
of each is reported, and the fault that it is reported for. `perform_reports_iff` says that an operation ends
in a report exactly if one of its stages fails, that the kind of the report tells which, and what the report
says.

A later stage is not come to after one that failed, so of two obstacles the first one is reported. Closing the file
is the exception: an open file is closed on every way, and a failure to do so is reported in place of what happened
before, be it that a value is not encoded (`saveValue_unclosed`).
-/

namespace CanonStore

open Value (lookup? lookup?_setEntry)

/-! ## Reports on a path and a cause -/

/-- The report is on a path and a cause: the message tells both, and the details hold the path and how the
cause is worded and named. -/
structure Report.Tells (content : Report) (path : Text) (cause : Fault) : Prop where
  path_eq : content.path = some path
  message : ∃ m, content.message = .text m ∧ path <:+: m ∧ cause.text <:+: m
  details : ∃ entries, content.details = .dict entries ∧ lookup? "path" entries = some (.text path) ∧
    lookup? "cause" entries = some (.text cause.text) ∧
    lookup? "cause_type" entries = some (.text cause.kindName)

/-- Whatever the details were, they tell the path and the cause once they are completed. -/
theorem Report.tells_complete {content : Report} {path : Text} {cause : Fault}
    {details : List (Value × Value)} (before between : Text) (hpath : content.path = some path)
    (hmessage : content.message = .text (before ++ path ++ between ++ cause.text))
    (hdetails : content.details = .dict (Fault.complete (some path) (some cause) details)) :
    content.Tells path cause where
  path_eq := hpath
  message := by
    refine ⟨_, hmessage, ?_, ?_⟩
    · rw [List.append_assoc]
      exact List.infix_append ..
    · exact (List.suffix_append ..).isInfix
  details := by
    refine ⟨_, hdetails, ?_, ?_, ?_⟩
    · rw [Fault.complete, lookup?_setEntry, if_neg (by decide), lookup?_setEntry, if_neg (by decide),
        lookup?_setEntry, if_pos rfl]
    · rw [Fault.complete, lookup?_setEntry, if_neg (by decide), lookup?_setEntry, if_pos rfl]
    · rw [Fault.complete, lookup?_setEntry, if_pos rfl]

/-- The operation ends in a report of the kind, on the path and the cause. -/
def Effect.ReportsOn {α : Type} (kind : ReportKind) (path : Text) (cause : Fault) (e : Effect α) : Prop :=
  ∃ content, e.result = .error (.report kind content (some cause)) ∧ content.Tells path cause

namespace Effect

variable {α β : Type} {f : α → β} {e : Effect α} {kind : ReportKind} {path : Text} {cause : Fault}

theorem reports_map_iff : (e.map f).Reports kind ↔ e.Reports kind := by
  unfold Reports Effect.map
  simp only [map_eq_error_iff]

theorem ReportsOn.map (h : e.ReportsOn kind path cause) : (e.map f).ReportsOn kind path cause := by
  obtain ⟨content, heq, htells⟩ := h
  exact ⟨content, map_eq_error_iff.mpr heq, htells⟩

end Effect

namespace Store

open FileSystem

variable {fs : FileSystem} {path : Text} {kind other : ReportKind}

/-! ## Failed operations -/

/-- A refusal of the system is reported under the kind of the operation, on its path. -/
theorem fail_reportsOn {α : Type} (files : FileSystem) (source : Text) (kind : ReportKind) (what path : Text)
    (f : SystemFault) :
    (fail (α := α) files source kind what path (.system f)).ReportsOn kind path f.toFault :=
  ⟨_, rfl, Report.tells_complete (what ++ " file ") ": " rfl rfl rfl⟩

/-- A report on the content of a file becomes one on the file. -/
theorem about_of_isReport {fault : Fault} (h : fault.IsReport kind) (what path : Text) (keepDetails : Bool) :
    ∃ content, about kind what path keepDetails fault = .report kind content (some fault) ∧
      content.Tells path fault := by
  obtain ⟨inner, cause, rfl⟩ := h
  refine ⟨_, if_pos rfl, ?_⟩
  exact Report.tells_complete (what ++ " file ") ": " rfl rfl rfl

/-- A fault that becomes a report was one, if the stage has no other reports than those of its kind. -/
theorem isReport_of_about {what : Text} {keepDetails : Bool} {fault : Fault}
    (hfault : ∀ {k}, fault.IsReport k → k = kind)
    (h : (about kind what path keepDetails fault).IsReport other) : other = kind ∧ fault.IsReport kind := by
  obtain rfl := kind_eq_of_about hfault h
  refine ⟨rfl, ?_⟩
  cases fault with
  | report inner content cause =>
    obtain rfl := hfault ⟨content, cause, rfl⟩
    exact ⟨content, cause, rfl⟩
  | plain | unshown | tooDeep | invalid => exact h

/-- What encoding a value reports is on the value. -/
theorem kind_eq_of_encode {v : Value} {path : Option Text} {fault : Fault}
    (h : Document.encode v path = .error fault) (hreport : fault.IsReport kind) : kind = .encode := by
  rcases Document.encode_eq_error h with ⟨content, cause, rfl⟩ | ⟨_, _, f, _, _, _, rfl⟩
  · obtain ⟨_, _, heq⟩ := hreport
    cases heq
    rfl
  · exact absurd hreport (Document.not_isReport_surrogateFault f kind)

/-! ## Stages -/

/-- The system does not let a file be opened anew: it does not open the path, or the open file cannot be used and
is closed, or cannot even be closed. -/
inductive RefusesOpening (fs : FileSystem) (path : Text) (obstacle : Option SystemFault) : SystemFault → Prop
  | unopened {f} (h : fs.openFile (.replace fileMode) path = .error (.system f)) : RefusesOpening fs path obstacle f
  | hindered {o f} (hopen : fs.openFile (.replace fileMode) path = .ok o) (hobstacle : obstacle = some f)
      (hclose : (o.2.close o.1).1 = .ok ()) : RefusesOpening fs path obstacle f
  | unclosed {o f} (hopen : fs.openFile (.replace fileMode) path = .ok o) (hobstacle : obstacle.isSome)
      (hclose : (o.2.close o.1).1 = .error f) : RefusesOpening fs path obstacle f

/-- A file is opened anew, under a handle in a file system, and can be used. -/
def OpensAnew (fs : FileSystem) (path : Text) (obstacle : Option SystemFault) (o : Handle × FileSystem) : Prop :=
  fs.openFile (.replace fileMode) path = .ok o ∧ obstacle = none

/-- The system does not let octets be written to an open file: it does not take them, or cannot close the file
after that, whether it took them or not. -/
inductive RefusesWriting (o : Handle × FileSystem) (octets : Bytes) : SystemFault → Prop
  | unwritten {f} (h : (o.2.write o.1 octets).1 = .error f) (hclose : (o.2.close o.1).1 = .ok ()) :
      RefusesWriting o octets f
  | unclosed {f} (hclose : (o.2.close o.1).1 = .error f) : RefusesWriting o octets f

/-- The system does not let a file be read: it does not open the path, does not read the open file, or cannot close
it after that. -/
inductive RefusesReading (fs : FileSystem) (path : Text) : SystemFault → Prop
  | unopened {f} (h : fs.openFile .read path = .error (.system f)) : RefusesReading fs path f
  | unread {o f} (hopen : fs.openFile .read path = .ok o) (h : o.2.readAll o.1 = .error (.system f))
      (hclose : (o.2.close o.1).1 = .ok ()) : RefusesReading fs path f
  | unclosed {o f} (hopen : fs.openFile .read path = .ok o) (hclose : (o.2.close o.1).1 = .error f) :
      RefusesReading fs path f

/-- A file is opened, read and closed again. -/
def ReadsAs (fs : FileSystem) (path : Text) (octets : Bytes) : Prop :=
  ∃ o, fs.openFile .read path = .ok o ∧ o.2.readAll o.1 = .ok octets ∧ (o.2.close o.1).1 = .ok ()

/-- A stage of the operation fails: the kind under which that is reported, and the fault that it is reported
for. -/
inductive Operation.Fails (fs : FileSystem) : Operation → ReportKind → Fault → Prop
  /-- The file for octets is not opened. -/
  | save_opening {path octets obstacle f} (h : RefusesOpening fs path obstacle f) :
      Fails fs (.save path octets obstacle) .storage f.toFault
  /-- The octets are not written to the open file, or it is not closed. -/
  | save_writing {path octets obstacle o f} (hopen : OpensAnew fs path obstacle o)
      (h : RefusesWriting o octets f) : Fails fs (.save path octets obstacle) .storage f.toFault
  /-- The file with octets, found by the normal text of its path, is not opened, not read or not closed. -/
  | load_reading {path f} (h : RefusesReading fs (PathName.normalText path) f) :
      Fails fs (.load path) .storage f.toFault
  /-- The file for a value is not opened, whether or not the value could be encoded. -/
  | saveValue_opening {path v obstacle f} (h : RefusesOpening fs path obstacle f) :
      Fails fs (.saveValue path v obstacle) .fileCreate f.toFault
  /-- The file is open, it is reported that the value cannot be encoded, and the file is closed again. -/
  | saveValue_encoding {path v obstacle o fault} (hopen : OpensAnew fs path obstacle o)
      (h : Document.encode v none = .error fault) (hreport : fault.IsReport .encode)
      (hclose : (o.2.close o.1).1 = .ok ()) : Fails fs (.saveValue path v obstacle) .encode fault
  /-- The file is open, the value cannot be encoded, and the file cannot be closed either. -/
  | saveValue_closing {path v obstacle o fault f} (hopen : OpensAnew fs path obstacle o)
      (h : Document.encode v none = .error fault) (hclose : (o.2.close o.1).1 = .error f) :
      Fails fs (.saveValue path v obstacle) .storage f.toFault
  /-- The value is encoded, and its octets are not written to the open file, or it is not closed. -/
  | saveValue_writing {path v obstacle o octets f} (hopen : OpensAnew fs path obstacle o)
      (hencode : Document.encode v none = .ok octets) (h : RefusesWriting o octets f) :
      Fails fs (.saveValue path v obstacle) .storage f.toFault
  /-- The file with a value is not opened, not read or not closed. -/
  | loadValue_reading {path target f} (h : RefusesReading fs path f) :
      Fails fs (.loadValue path target) .fileOpen f.toFault
  /-- The file is read, and it is reported that its octets cannot be decoded. -/
  | loadValue_decoding {path target octets fault} (hread : ReadsAs fs path octets)
      (h : Document.decode octets target none = .error fault) (hreport : fault.IsReport .decode) :
      Fails fs (.loadValue path target) .decode fault

/-! ## From the stage to the report -/

theorem eq_pair_of_fst {α β : Type} {x : α × β} {a : α} (h : x.1 = a) : x = (a, x.2) := Prod.ext h rfl

section Stages

variable {obstacle : Option SystemFault} {o : Handle × FileSystem} {f : SystemFault}

/-- Opening is refused exactly if the system does not open the file. -/
theorem refusesOpening_iff :
    RefusesOpening fs path obstacle f ↔ (openAnew fs path obstacle).1 = .error (.system f) := by
  unfold openAnew
  constructor
  · rintro (h | ⟨hopen, rfl, hclose⟩ | ⟨hopen, hobstacle, hclose⟩)
    · rw [h]
    · rw [hopen]
      exact closeAfter_eq_system_iff.mpr (.inr ⟨rfl, hclose⟩)
    · obtain ⟨g, rfl⟩ := Option.isSome_iff_exists.mp hobstacle
      rw [hopen]
      exact closeAfter_eq_system_iff.mpr (.inl hclose)
  · intro h
    cases hopen : fs.openFile (.replace fileMode) path with
    | error fault =>
      rw [hopen] at h
      cases h
      exact .unopened hopen
    | ok o =>
      rw [hopen] at h
      -- With the file open only an obstacle refuses, and a failing close takes its place.
      cases obstacle with
      | none => cases h
      | some g =>
        rcases closeAfter_eq_system_iff.mp h with hclose | ⟨heq, hclose⟩
        · exact .unclosed hopen rfl hclose
        · cases heq
          exact .hindered hopen rfl hclose

/-- A handle is got exactly if the system opens the file. -/
theorem opensAnew_iff : OpensAnew fs path obstacle o ↔ openAnew fs path obstacle = (.ok o.1, o.2) := by
  unfold OpensAnew openAnew
  cases fs.openFile (.replace fileMode) path with
  | error fault => simp
  | ok opened =>
    cases obstacle with
    | none => simp [Prod.ext_iff]
    | some g =>
      obtain ⟨other, hclosed⟩ := exists_closeAfter_error (α := Handle) opened.2 opened.1 (.system g)
      simp [hclosed]

/-- Writing is refused exactly if the octets are not written, or the file is not closed. -/
theorem refusesWriting_iff {octets : Bytes} :
    RefusesWriting o octets f ↔ (o.2.writeAndClose o.1 octets).1 = .error (.system f) := by
  rw [writeAndClose]
  dsimp only
  rw [closeAfter_eq_system_iff, close_write, mapError_eq_error_iff]
  constructor
  · rintro (⟨h, hclose⟩ | hclose)
    · exact .inr ⟨⟨f, h, rfl⟩, hclose⟩
    · exact .inl hclose
  · rintro (hclose | ⟨⟨_, h, heq⟩, hclose⟩)
    · exact .unclosed hclose
    · cases heq
      exact .unwritten h hclose

/-- Reading is refused exactly if the file is not opened, not read or not closed. -/
theorem refusesReading_iff : RefusesReading fs path f ↔ (fs.readFile path).1 = .error (.system f) := by
  unfold readFile
  constructor
  · rintro (h | ⟨hopen, h, hclose⟩ | ⟨hopen, hclose⟩)
    · rw [h]
    · rw [hopen]
      exact closeAfter_eq_system_iff.mpr (.inr ⟨h, hclose⟩)
    · rw [hopen]
      exact closeAfter_eq_system_iff.mpr (.inl hclose)
  · intro h
    cases hopen : fs.openFile .read path with
    | error fault =>
      rw [hopen] at h
      cases h
      exact .unopened hopen
    | ok o =>
      rw [hopen] at h
      rcases closeAfter_eq_system_iff.mp h with hclose | ⟨hread, hclose⟩
      · exact .unclosed hopen hclose
      · exact .unread hopen hread hclose

/-- A file reads as octets exactly if it is opened, read and closed. -/
theorem readsAs_iff {octets : Bytes} : ReadsAs fs path octets ↔ (fs.readFile path).1 = .ok octets := by
  unfold ReadsAs readFile
  cases fs.openFile .read path with
  | error fault => simp
  | ok o =>
    simp only [Except.ok.injEq, exists_eq_left']
    exact closeAfter_eq_ok_iff.symm

end Stages

/-- A stage that fails is reported on the path of the operation, and on what it fails for. -/
theorem reportsOn_of_fails {op : Operation} {cause : Fault} (h : op.Fails fs kind cause) :
    (perform fs op).ReportsOn kind op.path cause := by
  -- Case by case the stages before the failing one are replaced by their results, until only the report is
  -- left.
  cases h with
  | save_opening h =>
    have hanew := eq_pair_of_fst (refusesOpening_iff.mp h)
    apply Effect.ReportsOn.map
    rw [save, replace, hanew]
    exact fail_reportsOn ..
  | save_writing hopen h =>
    have hwrite := eq_pair_of_fst (refusesWriting_iff.mp h)
    apply Effect.ReportsOn.map
    rw [save, replace, opensAnew_iff.mp hopen]
    dsimp only
    rw [hwrite]
    exact fail_reportsOn ..
  | load_reading h =>
    have hread := readFile_of_fst (refusesReading_iff.mp h)
    apply Effect.ReportsOn.map
    rw [load, hread]
    exact fail_reportsOn ..
  | saveValue_opening h =>
    have hanew := eq_pair_of_fst (refusesOpening_iff.mp h)
    apply Effect.ReportsOn.map
    rw [saveValue, hanew]
    exact fail_reportsOn ..
  | saveValue_encoding hopen h hreport hclose =>
    obtain ⟨content, habout, htells⟩ :=
      about_of_isReport hreport "Unable to encode object before saving to" _ true
    apply Effect.ReportsOn.map
    rw [saveValue, opensAnew_iff.mp hopen]
    dsimp only
    rw [h]
    dsimp only
    rw [eq_pair_of_fst hclose]
    exact ⟨content, congrArg Except.error habout, htells⟩
  | saveValue_closing hopen h hclose =>
    apply Effect.ReportsOn.map
    rw [saveValue, opensAnew_iff.mp hopen]
    dsimp only
    rw [h]
    dsimp only
    rw [eq_pair_of_fst hclose]
    exact fail_reportsOn ..
  | saveValue_writing hopen hencode h =>
    have hwrite := eq_pair_of_fst (refusesWriting_iff.mp h)
    apply Effect.ReportsOn.map
    rw [saveValue, opensAnew_iff.mp hopen]
    dsimp only
    rw [hencode]
    dsimp only
    rw [hwrite]
    exact fail_reportsOn ..
  | loadValue_reading h =>
    have hread := readFile_of_fst (refusesReading_iff.mp h)
    apply Effect.ReportsOn.map
    rw [loadValue, hread]
    exact fail_reportsOn ..
  | loadValue_decoding hoctets h hreport =>
    have hread := readFile_of_fst (readsAs_iff.mp hoctets)
    obtain ⟨content, habout, htells⟩ := about_of_isReport hreport "Unable to decode loaded" _ false
    apply Effect.ReportsOn.map
    rw [loadValue, hread]
    dsimp only
    rw [h]
    exact ⟨content, congrArg Except.error habout, htells⟩

/-! ## From the report to the stage -/

theorem not_reports_of_ok {α : Type} {e : Effect α} {a : α} (h : e.result = .ok a) : ¬ e.Reports kind := by
  rintro ⟨fault, herror, _⟩
  cases h.symm.trans herror

/-- Octets are reported not to be saved only for a cause. -/
theorem exists_fails_save {octets : Bytes} {obstacle : Option SystemFault}
    (h : (save fs path octets obstacle).Reports kind) :
    ∃ cause, (Operation.save path octets obstacle).Fails fs kind cause := by
  rw [save, replace] at h
  rcases hanew : openAnew fs path obstacle with ⟨fault | handle, files⟩
  · rw [hanew] at h
    obtain ⟨rfl, f, rfl⟩ := eq_of_fail_reports h
    exact ⟨f.toFault, .save_opening (refusesOpening_iff.mpr (congrArg Prod.fst hanew))⟩
  · have hopen : OpensAnew fs path obstacle (handle, files) := opensAnew_iff.mpr hanew
    rw [hanew] at h
    dsimp only at h
    rcases hwrite : files.writeAndClose handle octets with ⟨fault | _, closed⟩
    · rw [hwrite] at h
      obtain ⟨rfl, f, rfl⟩ := eq_of_fail_reports h
      exact ⟨f.toFault, .save_writing hopen (refusesWriting_iff.mpr (congrArg Prod.fst hwrite))⟩
    · rw [hwrite] at h
      exact absurd h (not_reports_of_ok rfl)

/-- Octets are reported not to be loaded only for a cause. -/
theorem exists_fails_load (h : (load fs path).Reports kind) :
    ∃ cause, (Operation.load path).Fails fs kind cause := by
  rw [load] at h
  split at h
  · next fault files hread =>
    obtain ⟨rfl, f, rfl⟩ := eq_of_fail_reports h
    exact ⟨f.toFault, .load_reading (refusesReading_iff.mpr (congrArg Prod.fst hread))⟩
  · exact absurd h (not_reports_of_ok rfl)

/-- A value is reported not to be saved only for a cause. -/
theorem exists_fails_saveValue {v : Value} {obstacle : Option SystemFault}
    (h : (saveValue fs path v obstacle).Reports kind) :
    ∃ cause, (Operation.saveValue path v obstacle).Fails fs kind cause := by
  rw [saveValue] at h
  rcases hanew : openAnew fs path obstacle with ⟨fault | handle, files⟩
  · rw [hanew] at h
    obtain ⟨rfl, f, rfl⟩ := eq_of_fail_reports h
    exact ⟨f.toFault, .saveValue_opening (refusesOpening_iff.mpr (congrArg Prod.fst hanew))⟩
  · have hopen : OpensAnew fs path obstacle (handle, files) := opensAnew_iff.mpr hanew
    rw [hanew] at h
    dsimp only at h
    cases hencode : Document.encode v none with
    | error fault =>
      rw [hencode] at h
      dsimp only at h
      -- The open file is closed first, and only if that succeeds is it the value that is reported.
      rcases hclose : files.close handle with ⟨closing | _, closed⟩
      · rw [hclose] at h
        obtain ⟨rfl, f, heq⟩ := eq_of_fail_reports h
        cases heq
        exact ⟨closing.toFault, .saveValue_closing hopen hencode (congrArg Prod.fst hclose)⟩
      · rw [hclose] at h
        obtain ⟨_, hresult, hreport⟩ := h
        cases hresult
        obtain ⟨rfl, hinner⟩ := isReport_of_about (kind_eq_of_encode hencode) hreport
        exact ⟨fault, .saveValue_encoding hopen hencode hinner (congrArg Prod.fst hclose)⟩
    | ok octets =>
      rw [hencode] at h
      dsimp only at h
      rcases hwrite : files.writeAndClose handle octets with ⟨fault | _, closed⟩
      · rw [hwrite] at h
        obtain ⟨rfl, f, rfl⟩ := eq_of_fail_reports h
        exact ⟨f.toFault, .saveValue_writing hopen hencode (refusesWriting_iff.mpr (congrArg Prod.fst hwrite))⟩
      · rw [hwrite] at h
        exact absurd h (not_reports_of_ok rfl)

/-- A value is reported not to be loaded only for a cause. -/
theorem exists_fails_loadValue {target : Document.Target} (h : (loadValue fs path target).Reports kind) :
    ∃ cause, (Operation.loadValue path target).Fails fs kind cause := by
  rw [loadValue] at h
  split at h
  · next fault files hread =>
    obtain ⟨rfl, f, rfl⟩ := eq_of_fail_reports h
    exact ⟨f.toFault, .loadValue_reading (refusesReading_iff.mpr (congrArg Prod.fst hread))⟩
  · next octets files hread =>
    cases hdecode : Document.decode octets target none with
    | error fault =>
      rw [hdecode] at h
      obtain ⟨_, hresult, hreport⟩ := h
      cases hresult
      obtain ⟨rfl, hinner⟩ := isReport_of_about (Document.kind_eq_of_decode hdecode) hreport
      exact ⟨fault, .loadValue_decoding (readsAs_iff.mpr (congrArg Prod.fst hread)) hdecode hinner⟩
    | ok v =>
      rw [hdecode] at h
      exact absurd h (not_reports_of_ok rfl)

/-- Each report of an operation comes from a stage that fails. -/
theorem exists_fails_of_reports {op : Operation} (h : (perform fs op).Reports kind) :
    ∃ cause, op.Fails fs kind cause := by
  cases op with
  | save path octets obstacle => exact exists_fails_save (Effect.reports_map_iff.mp h)
  | load path => exact exists_fails_load (Effect.reports_map_iff.mp h)
  | saveValue path v obstacle => exact exists_fails_saveValue (Effect.reports_map_iff.mp h)
  | loadValue path target => exact exists_fails_loadValue (Effect.reports_map_iff.mp h)

/-- An operation ends in a report of a kind exactly if a stage of that kind fails. The report is then on the
path of the operation as it was given and on what the stage fails for, which is its cause. -/
theorem perform_reports_iff (fs : FileSystem) (op : Operation) (kind : ReportKind) :
    ((perform fs op).Reports kind ↔ ∃ cause, op.Fails fs kind cause) ∧
      ∀ cause, op.Fails fs kind cause → (perform fs op).ReportsOn kind op.path cause := by
  refine ⟨⟨exists_fails_of_reports, ?_⟩, fun cause => reportsOn_of_fails⟩
  rintro ⟨cause, h⟩
  obtain ⟨content, heq, _⟩ := reportsOn_of_fails h
  exact ⟨_, heq, content, some cause, rfl⟩

/-- A file that is not created is reported before a value that is not encoded. -/
example : (saveValue (fresh ["home"] 0o22) "no/x" (.foreign .set) none).Reports .fileCreate := ⟨_, rfl, _, _, rfl⟩

/-- On a medium that does not let files be closed, a value that is not encoded is not reported: what is reported is
that the file, which was opened, is not closed. -/
theorem saveValue_unclosed :
    ∃ files : FileSystem,
      files = { fresh ["home"] 0o22 with
        medium := { Medium.sound with closing := fun _ => some ⟨5, "Input/output error", none⟩ } } ∧
      (∃ o, files.openFile (.replace fileMode) "x" = .ok o) ∧
      (∃ fault, Document.encode (.foreign .set) none = .error fault ∧ fault.IsReport .encode) ∧
      (saveValue files "x" (.foreign .set) none).Reports .storage ∧
      ¬ (saveValue files "x" (.foreign .set) none).Reports .encode := by
  refine ⟨_, rfl, ⟨_, rfl⟩, ⟨_, rfl, _, _, rfl⟩, ⟨_, rfl, _, _, rfl⟩, ?_⟩
  rintro ⟨_, hresult, _, _, rfl⟩
  cases hresult

end Store

end CanonStore
