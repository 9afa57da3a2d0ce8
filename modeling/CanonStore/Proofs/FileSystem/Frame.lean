import CanonStore.Proofs.FileSystem.Handle

/-!
# What file operations leave alone

`SameBut P fs gs` says that `gs` is `fs` but for files that stand at places of `P`, or are new there: all
directories stay with their permissions, and so does everything elsewhere. A file that is opened to be written,
written and closed leaves all other places alone, whether the octets can be written or not. Paths lead where they
led before, because the directories stay.
-/

namespace CanonStore.FileSystem

/-- The second file system differs from the first at most in what stands at some places, and no directory is
concerned. -/
structure SameBut (P : Place → Prop) (fs gs : FileSystem) : Prop where
  node?_eq : ∀ p, ¬ P p → gs.node? p = fs.node? p
  directory_iff : ∀ p mode, gs.node? p = some (.directory mode) ↔ fs.node? p = some (.directory mode)
  current_eq : gs.current = fs.current
  mask_eq : gs.mask = fs.mask
  handles_eq : gs.handles = fs.handles
  permits_eq : gs.permits = fs.permits
  medium_eq : gs.medium = fs.medium

namespace SameBut

variable {P Q : Place → Prop} {fs gs hs : FileSystem} {p : Place}

protected theorem refl (P : Place → Prop) (fs : FileSystem) : SameBut P fs fs :=
  ⟨fun _ _ => rfl, fun _ _ => Iff.rfl, rfl, rfl, rfl, rfl, rfl⟩

theorem mono (h : SameBut P fs gs) (hPQ : ∀ p, P p → Q p) : SameBut Q fs gs :=
  { h with node?_eq := fun p hp => h.node?_eq p fun hP => hp (hPQ p hP) }

protected theorem trans (h : SameBut P fs gs) (h' : SameBut P gs hs) : SameBut P fs hs where
  node?_eq p hp := (h'.node?_eq p hp).trans (h.node?_eq p hp)
  directory_iff p mode := (h'.directory_iff p mode).trans (h.directory_iff p mode)
  current_eq := h'.current_eq.trans h.current_eq
  mask_eq := h'.mask_eq.trans h.mask_eq
  handles_eq := h'.handles_eq.trans h.handles_eq
  permits_eq := h'.permits_eq.trans h.permits_eq
  medium_eq := h'.medium_eq.trans h.medium_eq

theorem sameDirectories (h : SameBut P fs gs) : SameDirectories gs fs where
  directory_iff := h.directory_iff
  current_eq := h.current_eq
  permits_eq := h.permits_eq

/-- A handle makes no difference to where paths lead. -/
theorem sameDirectories_attach (h : SameBut P fs gs) (p : Place) : SameDirectories (gs.attach p).2 fs :=
  ⟨h.directory_iff, h.current_eq, h.permits_eq⟩

/-- A file that is put where no directory stands. -/
theorem put_file (hdir : ¬ fs.IsDirectory p) (content : Bytes) (mode : Nat) :
    SameBut (· = p) fs (fs.put p (.file content mode)) where
  node?_eq q hq := by
    rw [node?_put, if_neg hq]
  directory_iff q own := by
    rw [node?_put]
    by_cases hq : q = p
    · subst hq
      exact iff_of_false (by simp) fun h => hdir ⟨own, h⟩
    · rw [if_neg hq]
  current_eq := rfl
  mask_eq := rfl
  handles_eq := rfl
  permits_eq := rfl
  medium_eq := rfl

/-- What happens between the opening and the closing of a file is all that happens. -/
theorem release (h : SameBut P (fs.attach p).2 gs) : SameBut P fs (gs.release (fs.attach p).1) where
  node?_eq := h.node?_eq
  directory_iff := h.directory_iff
  current_eq := h.current_eq
  mask_eq := h.mask_eq
  handles_eq := by
    rw [FileSystem.release, h.handles_eq]
    exact List.erase_cons_head ..
  permits_eq := h.permits_eq
  medium_eq := h.medium_eq

end SameBut

section

variable {fs gs : FileSystem} {p : Place} {path : Text}

/-! ## Opening -/

theorem not_isDirectory_of_none (h : fs.node? p = none) : ¬ fs.IsDirectory p := by
  rintro ⟨mode, hmode⟩
  cases h.symm.trans hmode

theorem not_isDirectory_of_file {content : Bytes} {mode : Nat} (h : fs.node? p = some (.file content mode)) :
    ¬ fs.IsDirectory p := by
  rintro ⟨own, hown⟩
  cases h.symm.trans hown

theorem vacate_sameBut (fs : FileSystem) (mode : Nat) (p : Place) : SameBut (· = p) fs (fs.vacate mode p) := by
  unfold vacate
  split
  · next hnode => exact .put_file (not_isDirectory_of_none hnode) _ _
  · next hnode => exact .put_file (not_isDirectory_of_file hnode) _ _
  · exact .refl _ fs

theorem provide_sameBut (fs : FileSystem) (mode : Nat) (p : Place) : SameBut (· = p) fs (fs.provide mode p) := by
  unfold provide
  split
  · next hnode => exact .put_file (not_isDirectory_of_none hnode) _ _
  · exact .refl _ fs

/-- A file that is provided for stands there. -/
theorem node?_of_provide_eq_none {mode : Nat} {q : Place} (h : (fs.provide mode p).node? q = none) :
    fs.node? q = none := by
  by_cases hq : q = p
  · subst hq
    unfold provide at h
    split at h
    · next hnode => exact hnode
    · exact h
  · rw [← (provide_sameBut fs mode p).node?_eq q hq]
    exact h

theorem openFile_extend_of_opens? (h : fs.opens? path = some p) (mode : Nat) :
    fs.openFile (.extend mode) path = .ok ((fs.provide mode p).attach p) := by
  obtain ⟨hlocate, hopen⟩ := opens?_eq_some_iff.mp h
  have hrefusal := (writeRefusal?_eq_none_iff _ ⟨p, false⟩).mpr ⟨rfl, hopen⟩
  rw [openFile, hlocate]
  show (fs.openAt (.extend mode) ⟨p, false⟩).mapError _ = _
  unfold openAt
  rw [hrefusal]
  rfl

/-! ## Writing -/

theorem append_sameBut (fs : FileSystem) (p : Place) (octets : Bytes) :
    SameBut (· = p) fs (fs.append p octets) := by
  unfold append
  split
  · next hnode => exact .put_file (not_isDirectory_of_file hnode) _ _
  · exact .refl _ fs

/-- However many octets are written, only the open file changes. -/
theorem write_sameBut (fs : FileSystem) (h : Handle) (octets : Bytes) :
    SameBut (· = h.place) fs (fs.write h octets).2 := by
  unfold write
  split
  · exact append_sameBut fs h.place _
  · exact append_sameBut fs h.place octets

/-- A file is written and closed: all other places stay as they are, also if one of the two fails. -/
theorem writeAndClose_sameBut (fs : FileSystem) (p : Place) (octets : Bytes) :
    SameBut (· = p) fs ((fs.attach p).2.writeAndClose (fs.attach p).1 octets).2 := by
  rw [writeAndClose]
  dsimp only
  rw [closeAfter_snd]
  exact (write_sameBut (fs.attach p).2 (fs.attach p).1 octets).release

theorem replace_sameBut (fs : FileSystem) (mode : Nat) (p : Place) (octets : Bytes) :
    SameBut (· = p) fs
      (((fs.vacate mode p).attach p).2.writeAndClose ((fs.vacate mode p).attach p).1 octets).2 :=
  (vacate_sameBut fs mode p).trans (writeAndClose_sameBut _ p octets)

end

end CanonStore.FileSystem
