import CanonStore.Proofs.FileSystem.Frame
import CanonStore.Proofs.Store.Run

/-!
# Handles of the store

An operation holds at most one handle, from the opening of its file to the closing, and each way out passes
the closing, which gives up the handle even if it fails: a file that cannot be used once it is open, a value that
is not encoded, octets that are not written, and success. `openAnew_handles` says how opening a file anew can end, `handles_perform` what an operation
leaves of the handles, and `handles_after_append` what every step of a run does.

No operation is ordinary here: paths may lead anywhere, devices included, any file may be hindered, and the medium
may fail.
-/

namespace CanonStore.Store

open FileSystem

section Operations

variable (fs : FileSystem) (path : Text) (obstacle : Option SystemFault)

/-- Opening a file anew fails with the handles that there were, or adds one handle to them. -/
theorem openAnew_handles :
    (∃ fault files, openAnew fs path obstacle = (.error fault, files) ∧ files.handles = fs.handles) ∨
      ∃ (base : FileSystem) (p : Place),
        openAnew fs path obstacle = (.ok (base.attach p).1, (base.attach p).2) ∧ base.handles = fs.handles := by
  unfold openAnew
  cases hopen : fs.openFile (.replace fileMode) path with
  | error fault => exact .inl ⟨fault, fs, rfl, rfl⟩
  | ok o =>
    obtain ⟨p, rfl⟩ := exists_attach_of_openFile hopen
    have hbase := handles_prepared fs (.replace fileMode) p
    cases obstacle with
    | none => exact .inr ⟨_, p, rfl, hbase⟩
    | some f =>
      -- The file that cannot be used is closed before the fault is passed on.
      obtain ⟨other, hclosed⟩ := exists_closeAfter_error (α := Handle)
        ((fs.prepared (.replace fileMode) p).attach p).2 ((fs.prepared (.replace fileMode) p).attach p).1
        (.system f)
      rw [release_attach] at hclosed
      exact .inl ⟨other, _, hclosed, hbase⟩

/-- A file is closed after writing, whether it takes the octets or not. -/
theorem handles_writeAndClose (p : Place) (octets : Bytes) :
    ((fs.attach p).2.writeAndClose (fs.attach p).1 octets).2.handles = fs.handles :=
  (writeAndClose_sameBut fs p octets).handles_eq

theorem handles_save (octets : Bytes) : (save fs path octets obstacle).files.handles = fs.handles := by
  have hreplace : (replace fs path octets obstacle).2.handles = fs.handles := by
    unfold replace
    rcases openAnew_handles fs path obstacle with ⟨fault, files, heq, hfiles⟩ | ⟨base, p, heq, hbase⟩
    · rw [heq]
      exact hfiles
    · rw [heq]
      exact (handles_writeAndClose base p octets).trans hbase
  unfold save
  split
  · next fault files heq =>
    rw [(fail_eq _ _ _ _ _ _).2]
    rwa [heq] at hreplace
  · next files heq =>
    show files.handles = fs.handles
    rwa [heq] at hreplace

/-- Four ways lead out of storing a value once its file is open, and each one closes it. -/
theorem handles_saveValue (v : Value) : (saveValue fs path v obstacle).files.handles = fs.handles := by
  unfold saveValue
  rcases openAnew_handles fs path obstacle with ⟨fault, files, heq, hfiles⟩ | ⟨base, p, heq, hbase⟩
  · rw [heq]
    show (fail files valueSource .fileCreate unableToCreate path fault : Effect Unit).files.handles = _
    rw [(fail_eq _ _ _ _ _ _).2]
    exact hfiles
  · rw [heq]
    dsimp only
    -- A value that cannot be encoded still has its file opened, and that is closed again, however that ends.
    cases Document.encode v none with
    | error fault =>
      have hclose := close_snd (base.attach p).2 (base.attach p).1
      rw [release_attach] at hclose
      dsimp only
      split
      · next closing files heq =>
        rw [heq] at hclose
        rw [(fail_eq _ _ _ _ _ _).2]
        exact (congrArg FileSystem.handles hclose).trans hbase
      · next files heq =>
        rw [heq] at hclose
        exact (congrArg FileSystem.handles hclose).trans hbase
    | ok octets =>
      have hwrite := (handles_writeAndClose base p octets).trans hbase
      dsimp only
      split
      · next fault files hfiles =>
        rw [(fail_eq _ _ _ _ _ _).2]
        rwa [hfiles] at hwrite
      · next files hfiles =>
        show files.handles = fs.handles
        rwa [hfiles] at hwrite

end Operations

/-- Every operation leaves the handles that were open, and no other. -/
theorem handles_perform (fs : FileSystem) (op : Operation) : (perform fs op).files.handles = fs.handles := by
  cases op with
  | save path octets obstacle => exact handles_save fs path obstacle octets
  | load path => exact congrArg FileSystem.handles (files_load fs path)
  | saveValue path v obstacle => exact handles_saveValue fs path obstacle v
  | loadValue path target => exact congrArg FileSystem.handles (files_loadValue fs path target)

theorem handles_after (fs : FileSystem) (run : List Operation) : (after fs run).handles = fs.handles := by
  induction run using List.reverseRecOn with
  | nil => rfl
  | append_singleton run op ih =>
    rw [after_append, handles_perform]
    exact ih

/-- After every step of a run the same handles are open as before it, and so the same as before the run,
whatever the steps end in. -/
theorem handles_after_append (fs : FileSystem) (run : List Operation) (op : Operation) :
    (after fs (run ++ [op])).handles = (after fs run).handles ∧
      (after fs (run ++ [op])).handles = fs.handles := by
  refine ⟨?_, handles_after fs (run ++ [op])⟩
  rw [after_append]
  exact handles_perform (after fs run) op

end CanonStore.Store
