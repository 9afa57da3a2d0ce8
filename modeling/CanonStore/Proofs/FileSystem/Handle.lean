import CanonStore.FileSystem.Directory
import CanonStore.Proofs.FileSystem.Walk

/-!
# Files opened, written and read

Opening a file to replace it, writing octets and closing it again puts these octets in its place, under the
permissions that the file had or that a new one gets (`replaceWith`), and changes nothing else, where the medium
is sound. Reading a file leaves the file system as it is, and reads what the file holds if the process may
(`readFile_of_locate`).
-/

namespace CanonStore.FileSystem

section

variable {fs : FileSystem} {p : Place} {path : Text} {content : Bytes} {mode : Nat}

theorem putNode_putNode (p : Place) (m n : Node) (nodes : List (Place × Node)) :
    putNode p n (putNode p m nodes) = putNode p n nodes := by
  induction nodes with
  | nil => simp [putNode]
  | cons e rest ih =>
    by_cases he : e.1 = p
    · simp [putNode, he]
    · simp [putNode, he, ih]

/-- Only what was put last at a place stays there. -/
theorem put_put (fs : FileSystem) (p : Place) (m n : Node) : (fs.put p m).put p n = fs.put p n := by
  simp only [put, putNode_putNode]

/-- A device stands at the place. -/
def IsDevice (fs : FileSystem) (p : Place) : Prop := ∃ kind, fs.node? p = some (.device kind)

instance (fs : FileSystem) (p : Place) : Decidable (fs.IsDevice p) :=
  match h : fs.node? p with
  | some (.device kind) => .isTrue ⟨kind, h⟩
  | some (.file _ _) | some (.directory _) | none => .isFalse fun hdev => by
    obtain ⟨kind, hkind⟩ := hdev
    exact nomatch h.symm.trans hkind

/-- The medium does not fail at the place. -/
structure SoundAt (fs : FileSystem) (p : Place) : Prop where
  reading : fs.medium.reading p = none
  writing : fs.medium.writing p = none
  closing : fs.medium.closing p = none

instance (fs : FileSystem) (p : Place) : Decidable (fs.SoundAt p) :=
  decidable_of_iff (fs.medium.reading p = none ∧ fs.medium.writing p = none ∧ fs.medium.closing p = none)
    ⟨fun h => ⟨h.1, h.2.1, h.2.2⟩, fun h => ⟨h.reading, h.writing, h.closing⟩⟩

/-- The medium takes octets that are written to a file at the place, and lets the file be closed. -/
structure Takes (fs : FileSystem) (p : Place) (octets : Bytes) : Prop where
  writing : ∀ room fault, fs.medium.writing p = some (room, fault) → octets.length ≤ room
  closing : fs.medium.closing p = none

/-- A place where nothing fails takes all octets. -/
theorem SoundAt.takes (h : fs.SoundAt p) (octets : Bytes) : fs.Takes p octets where
  writing _ _ hfault := nomatch h.writing.symm.trans hfault
  closing := h.closing

/-- The medium lets a file at the place be read, and closed again. -/
structure Gives (fs : FileSystem) (p : Place) : Prop where
  reading : fs.medium.reading p = none
  closing : fs.medium.closing p = none

/-- A place where nothing fails gives what it has. -/
theorem SoundAt.gives (h : fs.SoundAt p) : fs.Gives p := ⟨h.reading, h.closing⟩

/-- The permissions of the file at a place, or those that a new one gets. -/
def modeFor (fs : FileSystem) (mode : Nat) (p : Place) : Nat := (fs.mode? p).getD (fs.allowed mode)

/-- A permission is given to a new file if it is asked for and not masked. -/
theorem testBit_allowed (fs : FileSystem) (mode i : Nat) :
    (fs.allowed mode).testBit i = (mode.testBit i && (decide (i < 9) && !fs.mask.testBit i)) := by
  have hall : (0o777 : Nat) = 2 ^ 9 - 1 := rfl
  unfold allowed
  rw [Nat.testBit_and, Nat.testBit_xor, Nat.testBit_and, hall, Nat.testBit_two_pow_sub_one]
  cases fs.mask.testBit i <;> cases decide (i < 9) <;> simp

/-- A file with a new content, in a place where nothing stood or another file. -/
def replaceWith (fs : FileSystem) (mode : Nat) (p : Place) (content : Bytes) : FileSystem :=
  fs.put p (.file content (fs.modeFor mode p))

/-- Where neither a directory nor a device stands, there is a file or nothing. -/
theorem node?_eq_none_or_file (hdir : ¬ fs.IsDirectory p) (hdev : ¬ fs.IsDevice p) :
    fs.node? p = none ∨ ∃ content mode, fs.node? p = some (.file content mode) := by
  cases hnode : fs.node? p with
  | none => exact .inl rfl
  | some n =>
    cases n with
    | file content mode => exact .inr ⟨content, mode, rfl⟩
    | directory mode => exact absurd ⟨mode, hnode⟩ hdir
    | device kind => exact absurd ⟨kind, hnode⟩ hdev

/-- To empty a file is to replace what it holds by nothing. -/
theorem vacate_eq (hdir : ¬ fs.IsDirectory p) (hdev : ¬ fs.IsDevice p) (mode : Nat) :
    fs.vacate mode p = fs.replaceWith mode p [] := by
  rcases node?_eq_none_or_file hdir hdev with hnode | ⟨content, own, hnode⟩
  · simp only [vacate, replaceWith, modeFor, mode?, hnode, Option.getD_none]
  · simp only [vacate, replaceWith, modeFor, mode?, hnode, Option.getD_some]

/-! ## Opening to replace -/

/-- To open a file anew leads to the place that `opens?` tells. -/
theorem openFile_replace_of_opens? (h : fs.opens? path = some p) (mode : Nat) :
    fs.openFile (.replace mode) path = .ok ((fs.vacate mode p).attach p) := by
  obtain ⟨hlocate, hopen⟩ := opens?_eq_some_iff.mp h
  have hrefusal := (writeRefusal?_eq_none_iff _ ⟨p, false⟩).mpr ⟨rfl, hopen⟩
  rw [openFile, hlocate]
  show (fs.openAt (.replace mode) ⟨p, false⟩).mapError _ = _
  unfold openAt
  rw [hrefusal]
  rfl

/-- Whatever a file is opened to be written for, the same paths can be opened. -/
theorem exists_openFile_iff {purpose : Purpose} (hpurpose : purpose ≠ .read) :
    (∃ o, fs.openFile purpose path = .ok o) ↔ (fs.opens? path).isSome := by
  unfold opens? openFile
  cases fs.locate path with
  | error fault => exact iff_of_false (fun h => nomatch h.choose_spec) (by simp)
  | ok d =>
    show (∃ o, (fs.openAt purpose d).mapError _ = .ok o) ↔ _
    simp only [mapError_eq_ok_iff]
    unfold openAt
    cases purpose with
    | read => exact absurd rfl hpurpose
    | replace mode => cases fs.writeRefusal? d <;> simp
    | extend mode => cases fs.writeRefusal? d <;> simp

theorem openFile_replace_of_not_opens? (h : fs.opens? path = none) (mode : Nat) :
    ∃ fault, fs.openFile (.replace mode) path = .error fault := by
  cases hopen : fs.openFile (.replace mode) path with
  | error fault => exact ⟨fault, rfl⟩
  | ok o =>
    have hopens := (exists_openFile_iff (nofun : Purpose.replace mode ≠ .read)).mp ⟨o, hopen⟩
    rw [h] at hopens
    cases hopens

/-- A path that can be opened to be written leads to something if anything stands there. -/
theorem hasPath_of_opens? (h : fs.opens? path = some p) : fs.hasPath path = .ok (fs.node? p).isSome := by
  obtain ⟨hlocate, hlong, hdir, _⟩ := opens?_eq_some_iff.mp h
  -- The place can be opened whether or not something is there: that it is missing is the one refusal that
  -- counts as no.
  cases hnode : fs.node? p with
  | none =>
    have hfind : fs.nodeOf path = .error (.system (Refusal.missing.ofPath path)) := by
      rw [nodeOf, hlocate]
      show (fs.nodeAt ⟨p, false⟩).mapError _ >>= _ = _
      rw [nodeAt, lookFor_eq_missing_iff.mpr ⟨hlong, hnode⟩]
      rfl
    rw [hasPath, hfind]
    rfl
  | some n =>
    have hfind : fs.nodeOf path = .ok (p, n) := by
      rw [nodeOf, hlocate]
      show (fs.nodeAt ⟨p, false⟩).mapError _ >>= _ = _
      rw [nodeAt, lookFor_eq_ok_iff.mpr ⟨hlong, hnode⟩]
      cases n with
      | directory mode => exact absurd ⟨mode, hnode⟩ hdir
      | file content mode => rfl
      | device kind => rfl
    rw [hasPath, hfind]
    rfl

/-! ## Handles -/

/-- A handle that is given back leaves the file system as it was. -/
theorem release_attach (fs : FileSystem) (p : Place) : (fs.attach p).2.release (fs.attach p).1 = fs := by
  simp only [attach, release, List.erase_cons_head]

/-- However closing ends, the handle is given up. -/
theorem close_snd (fs : FileSystem) (h : Handle) : (fs.close h).2 = fs.release h := by
  unfold close
  split <;> rfl

/-- However a use of a file ends, its handle is given back. -/
theorem closeAfter_snd {α : Type} (fs : FileSystem) (h : Handle) (r : Except FileFault α) :
    (fs.closeAfter h r).2 = fs.release h := by
  rw [← close_snd]
  unfold closeAfter
  split
  · next hclose => rw [hclose]
  · next hclose => rw [hclose]

/-- A failing close takes the place of the result, be it good or bad. -/
theorem closeAfter_fst {α : Type} (fs : FileSystem) (h : Handle) (r : Except FileFault α) :
    (fs.closeAfter h r).1 =
      match fs.medium.closing h.place with
      | some fault => .error (.system fault)
      | none => r := by
  unfold closeAfter close
  cases fs.medium.closing h.place <;> rfl

/-- How closing ends does not depend on what was written before. -/
theorem close_write (fs : FileSystem) (h : Handle) (octets : Bytes) :
    ((fs.write h octets).2.close h).1 = (fs.close h).1 := by
  have hmedium : (fs.write h octets).2.medium = fs.medium := by
    unfold write append
    split <;> dsimp only <;> split <;> rfl
  unfold close
  rw [hmedium]
  cases fs.medium.closing h.place <;> rfl

/-- What was done with a file fails once the file is closed, for the failure to close it or for its own. -/
theorem closeAfter_eq_system_iff {α : Type} {h : Handle} {r : Except FileFault α} {fault : SystemFault} :
    (fs.closeAfter h r).1 = .error (.system fault) ↔
      (fs.close h).1 = .error fault ∨ r = .error (.system fault) ∧ (fs.close h).1 = .ok () := by
  unfold closeAfter
  rcases fs.close h with ⟨_ | _, files⟩
  · simp
  · simp

/-- A use of a file succeeds only if the file can be closed, too. -/
theorem closeAfter_eq_ok_iff {α : Type} {h : Handle} {r : Except FileFault α} {a : α} :
    (fs.closeAfter h r).1 = .ok a ↔ r = .ok a ∧ (fs.close h).1 = .ok () := by
  unfold closeAfter
  rcases fs.close h with ⟨_ | _, files⟩
  · simp
  · simp

/-- On a sound medium closing gives the handle back and nothing else. -/
theorem close_of_sound {h : Handle} (hclosing : fs.medium.closing h.place = none) :
    fs.close h = (.ok (), fs.release h) := by
  rw [close, hclosing]

theorem closeAfter_of_sound {α : Type} {h : Handle} (hclosing : fs.medium.closing h.place = none)
    (r : Except FileFault α) : fs.closeAfter h r = (r, fs.release h) := by
  rw [closeAfter, close_of_sound hclosing]

/-- What failed before stays failed, with the failure to close in its place if there is one. -/
theorem exists_closeAfter_error {α : Type} (fs : FileSystem) (h : Handle) (fault : FileFault) :
    ∃ other, fs.closeAfter h (.error fault : Except FileFault α) = (.error other, fs.release h) := by
  have hfiles := closeAfter_snd fs h (.error fault : Except FileFault α)
  have herror : ∃ other, (fs.closeAfter h (.error fault : Except FileFault α)).1 = .error other := by
    unfold closeAfter
    split
    · exact ⟨_, rfl⟩
    · exact ⟨fault, rfl⟩
  obtain ⟨other, hother⟩ := herror
  exact ⟨other, Prod.ext hother hfiles⟩

/-- The files once a place is made ready for what a file is opened for there. -/
def prepared (fs : FileSystem) : Purpose → Place → FileSystem
  | .read, _ => fs
  | .replace mode, p => fs.vacate mode p
  | .extend mode, p => fs.provide mode p

/-- To prepare a file opens no handle. -/
theorem handles_prepared (fs : FileSystem) (purpose : Purpose) (p : Place) :
    (fs.prepared purpose p).handles = fs.handles := by
  cases purpose with
  | read => rfl
  | replace mode =>
    show (fs.vacate mode p).handles = fs.handles
    unfold vacate
    split <;> rfl
  | extend mode =>
    show (fs.provide mode p).handles = fs.handles
    unfold provide
    split <;> rfl

/-- Whatever a file is opened for, it gets one handle. -/
theorem exists_attach_of_openFile {purpose : Purpose} {o : Handle × FileSystem}
    (h : fs.openFile purpose path = .ok o) : ∃ p, o = (fs.prepared purpose p).attach p := by
  rw [openFile, bind_eq_ok_iff] at h
  obtain ⟨d, _, hopen⟩ := h
  rw [mapError_eq_ok_iff] at hopen
  refine ⟨d.place, ?_⟩
  unfold openAt at hopen
  cases purpose with
  | read => cases hrefusal : fs.readRefusal? d <;> simp_all [prepared]
  | replace mode => cases hrefusal : fs.writeRefusal? d <;> simp_all [prepared]
  | extend mode => cases hrefusal : fs.writeRefusal? d <;> simp_all [prepared]

/-- Octets are written unless the medium runs out of room for them. -/
theorem writeFault?_eq_none_iff {h : Handle} (hnode : fs.node? h.place = some (.file content mode))
    (octets : Bytes) :
    fs.writeFault? h octets = none ↔
      ∀ room fault, fs.medium.writing h.place = some (room, fault) → octets.length ≤ room := by
  unfold writeFault?
  rw [hnode]
  rcases fs.medium.writing h.place with _ | ⟨room, fault⟩
  · simp
  · simp

/-- Octets written to a file that was just emptied are its content once it is closed. -/
theorem writeAndClose_attach {octets : Bytes} (htakes : fs.Takes p octets)
    (hnode : fs.node? p = some (.file [] mode)) :
    (fs.attach p).2.writeAndClose (fs.attach p).1 octets = (.ok (), fs.put p (.file octets mode)) := by
  have hopen : (fs.attach p).2.node? (fs.attach p).1.place = some (.file [] mode) := hnode
  have hwrite : (fs.attach p).2.write (fs.attach p).1 octets =
      (.ok (), (fs.attach p).2.put p (.file octets mode)) := by
    rw [write, (writeFault?_eq_none_iff hopen octets).mpr htakes.writing, append, hopen]
    rfl
  rw [writeAndClose, hwrite]
  dsimp only
  rw [closeAfter_of_sound htakes.closing]
  simp only [attach, release, put, List.erase_cons_head]
  rfl

/-- A file that was just emptied is written and closed exactly if the medium takes the octets. -/
theorem writeAndClose_eq_ok_iff {octets : Bytes} (hnode : fs.node? p = some (.file [] mode)) :
    ((fs.attach p).2.writeAndClose (fs.attach p).1 octets).1 = .ok () ↔ fs.Takes p octets := by
  refine ⟨fun h => ?_, fun htakes => congrArg Prod.fst (writeAndClose_attach htakes hnode)⟩
  have hopen : (fs.attach p).2.node? (fs.attach p).1.place = some (.file [] mode) := hnode
  rw [writeAndClose, closeAfter_eq_ok_iff, mapError_eq_ok_iff, close_write] at h
  obtain ⟨hwrite, hclose⟩ := h
  refine ⟨(writeFault?_eq_none_iff hopen octets).mp ?_, ?_⟩
  · rw [write] at hwrite
    split at hwrite
    · cases hwrite
    · next hfault => exact hfault
  · rw [close] at hclose
    split at hclose
    · cases hclose
    · next hclosing => exact hclosing

theorem node?_replaceWith (fs : FileSystem) (mode : Nat) (p : Place) (content : Bytes) :
    (fs.replaceWith mode p content).node? p = some (.file content (fs.modeFor mode p)) := by
  rw [replaceWith, node?_put, if_pos rfl]

/-- The octets that are written through the handle of an emptied file are all that it holds. -/
theorem writeAndClose_replace {octets : Bytes} (hdir : ¬ fs.IsDirectory p) (hdev : ¬ fs.IsDevice p)
    (htakes : fs.Takes p octets) (mode : Nat) :
    ((fs.vacate mode p).attach p).2.writeAndClose ((fs.vacate mode p).attach p).1 octets =
      (.ok (), fs.replaceWith mode p octets) := by
  have htakes' : (fs.replaceWith mode p []).Takes p octets := ⟨htakes.writing, htakes.closing⟩
  rw [vacate_eq hdir hdev, writeAndClose_attach htakes' (node?_replaceWith fs mode p []), replaceWith, replaceWith,
    put_put]

/-! ## Reading -/

/-- Reading leaves no trace. -/
theorem readFile_snd (fs : FileSystem) (path : Text) : (fs.readFile path).2 = fs := by
  unfold readFile
  cases hopen : fs.openFile .read path with
  | error fault => rfl
  | ok opened =>
    obtain ⟨p, rfl⟩ := exists_attach_of_openFile hopen
    exact (closeAfter_snd _ _ _).trans (release_attach fs p)

/-- A file is read in three steps: it is opened, read and closed. -/
theorem readFile_fst (fs : FileSystem) (path : Text) :
    (fs.readFile path).1 =
      fs.openFile .read path >>= fun o => (o.2.closeAfter o.1 (o.2.readAll o.1)).1 := by
  unfold readFile
  cases fs.openFile .read path with
  | error fault => rfl
  | ok o => rfl

theorem readFile_of_fst {r : Except FileFault Bytes} (h : (fs.readFile path).1 = r) :
    fs.readFile path = (r, fs) :=
  Prod.ext h (fs.readFile_snd path)

/-- A file is refused to a process that may not read it. -/
theorem readRefusal?_of_file (hlong : ¬ TooLong p) (hnode : fs.node? p = some (.file content mode)) :
    fs.readRefusal? ⟨p, false⟩ = if fs.allows .read p then none else some .denied := by
  unfold readRefusal?
  dsimp only
  rw [lookFor_eq_ok_iff.mpr ⟨hlong, hnode⟩]
  rfl

/-- A path that leads to a file reads its content, if the process may read it, and is refused otherwise. -/
theorem readFile_of_locate (hlocate : fs.locate path = .ok ⟨p, false⟩) (hlong : ¬ TooLong p)
    (hgives : fs.Gives p) (hnode : fs.node? p = some (.file content mode)) :
    fs.readFile path =
      (if fs.allows .read p then .ok content else .error (.system (Refusal.denied.ofPath path)), fs) := by
  have hopen : fs.openFile .read path = if fs.allows .read p then .ok (fs.attach p)
      else .error (.system (Refusal.denied.ofPath path)) := by
    rw [openFile, hlocate]
    show (fs.openAt .read ⟨p, false⟩).mapError _ = _
    unfold openAt
    rw [readRefusal?_of_file hlong hnode]
    cases fs.allows .read p <;> rfl
  have hread : (fs.attach p).2.readAll (fs.attach p).1 = .ok content := by
    have hopened : (fs.attach p).2.node? (fs.attach p).1.place = some (.file content mode) := hnode
    have hreading : (fs.attach p).2.medium.reading (fs.attach p).1.place = none := hgives.reading
    unfold readAll
    rw [hopened, hreading]
  apply readFile_of_fst
  unfold readFile
  rw [hopen]
  cases fs.allows .read p with
  | false => rfl
  | true =>
    have hclosing : (fs.attach p).2.medium.closing (fs.attach p).1.place = none := hgives.closing
    show ((fs.attach p).2.closeAfter (fs.attach p).1 ((fs.attach p).2.readAll (fs.attach p).1)).1 = _
    rw [closeAfter_of_sound hclosing]
    exact hread

/-! ## Files that stay -/

section

variable {gs : FileSystem} {d : Destination}

/-- What a place looks like depends on its node alone. -/
theorem lookFor_congr (hnode : gs.node? p = fs.node? p) : gs.lookFor p = fs.lookFor p := by
  rw [lookFor, lookFor, hnode]

/-- A path still leads to something if it did, where the same stands among the same directories. -/
theorem hasPath_congr (h : SameDirectories gs fs) (hlocate : fs.locate path = .ok d)
    (hnode : gs.node? d.place = fs.node? d.place) : gs.hasPath path = fs.hasPath path := by
  have hfound : gs.nodeOf path = fs.nodeOf path := by
    rw [nodeOf, nodeOf, hlocate, (locate_congr h path d).mpr hlocate]
    show (gs.nodeAt d).mapError _ >>= _ = (fs.nodeAt d).mapError _ >>= _
    rw [nodeAt, nodeAt, lookFor_congr hnode]
  rw [hasPath, hasPath, hfound]

/-- A path reads what it read before, where the same stands among the same directories. -/
theorem readFile_congr (h : SameDirectories gs fs) (hmedium : gs.medium = fs.medium)
    (hlocate : fs.locate path = .ok d) (hnode : gs.node? d.place = fs.node? d.place) :
    (gs.readFile path).1 = (fs.readFile path).1 := by
  have hrefusal : gs.readRefusal? d = fs.readRefusal? d := by
    unfold readRefusal? allows
    rw [lookFor_congr hnode, hnode, h.permits_eq]
  have hread : gs.readAll ⟨0, d.place⟩ = fs.readAll ⟨0, d.place⟩ := by
    rw [readAll, readAll, hmedium, hnode]
  have hclosing : gs.medium.closing d.place = fs.medium.closing d.place := congrArg (Medium.closing · _) hmedium
  rw [readFile_fst, readFile_fst, openFile, openFile, hlocate, (locate_congr h path d).mpr hlocate]
  show (gs.openAt .read d).mapError _ >>= _ = (fs.openAt .read d).mapError _ >>= _
  unfold openAt
  rw [hrefusal]
  cases fs.readRefusal? d with
  | some r => rfl
  | none =>
    show ((gs.attach d.place).2.closeAfter _ (gs.readAll ⟨0, d.place⟩)).1 =
      ((fs.attach d.place).2.closeAfter _ (fs.readAll ⟨0, d.place⟩)).1
    rw [closeAfter_fst, closeAfter_fst, hread]
    show (match gs.medium.closing d.place with | some fault => _ | none => _) = _
    rw [hclosing]
    rfl

end

end

end CanonStore.FileSystem
