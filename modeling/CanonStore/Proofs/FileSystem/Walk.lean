import CanonStore.FileSystem.Handle
import CanonStore.Proofs.Parts

/-!
# Where paths lead

A walk along a path only asks which places are directories that the process may search (`walk_cons_eq_ok_iff`).
So a path leads to the same place in two file systems that agree on their directories (`locate_congr`), whatever
files come and go. Whether it can be opened to be written there also depends on the permissions of what stands at
the place, or of the directory above where nothing does (`opens?_eq_some_iff`).
-/

namespace CanonStore.FileSystem

/-- A directory stands at the place. -/
def IsDirectory (fs : FileSystem) (p : Place) : Prop := ∃ mode, fs.node? p = some (.directory mode)

/-- A directory stands at the place, and the process may look for names in it. -/
def Searchable (fs : FileSystem) (p : Place) : Prop :=
  ∃ mode, fs.node? p = some (.directory mode) ∧ fs.permits .search p mode = true

/-- The last name of the place is too long to be looked for. -/
def TooLong (p : Place) : Prop :=
  (p.getLast?.any fun name => FilePath.maxName < (FilePath.octets name).length) = true

section Walk

variable {fs gs : FileSystem} {p q : Place}

/-- What is looked for is found if its name is short enough and there is something at the place. -/
theorem lookFor_eq_ok_iff {n : Node} : fs.lookFor p = .ok n ↔ ¬ TooLong p ∧ fs.node? p = some n := by
  unfold lookFor TooLong
  split
  · next h => simp [h]
  · next h =>
    cases hnode : fs.node? p with
    | none => simp
    | some m => simp [h]

/-- Nothing is found at a place that is empty. -/
theorem lookFor_eq_missing_iff : fs.lookFor p = .error .missing ↔ ¬ TooLong p ∧ fs.node? p = none := by
  unfold lookFor TooLong
  split
  · next h => simp [h]
  · next h =>
    cases hnode : fs.node? p with
    | none => simp [h]
    | some m => simp

theorem step_eq_ok_iff {name : Text} :
    fs.step p name = .ok q ↔ (¬ TooLong p ∧ fs.Searchable p) ∧ p.next name = q := by
  unfold step
  constructor
  · intro h
    split at h
    · cases h
    · next mode hlook =>
      obtain ⟨hlong, hnode⟩ := lookFor_eq_ok_iff.mp hlook
      split at h
      · next hsearch => exact ⟨⟨hlong, mode, hnode, hsearch⟩, Except.ok.inj h⟩
      · cases h
    · cases h
  · rintro ⟨⟨hlong, mode, hnode, hsearch⟩, rfl⟩
    rw [lookFor_eq_ok_iff.mpr ⟨hlong, hnode⟩]
    exact if_pos hsearch

theorem walk_cons_eq_ok_iff {name : Text} {rest : List Text} :
    fs.walk p (name :: rest) = .ok q ↔
      (¬ TooLong p ∧ fs.Searchable p) ∧ fs.walk (p.next name) rest = .ok q := by
  rw [walk, bind_eq_ok_iff]
  simp only [step_eq_ok_iff]
  constructor
  · rintro ⟨_, ⟨hdir, rfl⟩, hrest⟩
    exact ⟨hdir, hrest⟩
  · rintro ⟨hdir, hrest⟩
    exact ⟨_, ⟨hdir, rfl⟩, hrest⟩

/-- Two file systems with the same directories and the same current directory, for the same process. -/
structure SameDirectories (fs gs : FileSystem) : Prop where
  directory_iff : ∀ p mode, fs.node? p = some (.directory mode) ↔ gs.node? p = some (.directory mode)
  current_eq : fs.current = gs.current
  permits_eq : fs.permits = gs.permits

namespace SameDirectories

protected theorem refl (fs : FileSystem) : SameDirectories fs fs := ⟨fun _ _ => Iff.rfl, rfl, rfl⟩

protected theorem trans {hs : FileSystem} (h : SameDirectories fs gs) (h' : SameDirectories gs hs) :
    SameDirectories fs hs where
  directory_iff p mode := (h.directory_iff p mode).trans (h'.directory_iff p mode)
  current_eq := h.current_eq.trans h'.current_eq
  permits_eq := h.permits_eq.trans h'.permits_eq

/-- File systems with the same directories have them at the same places. -/
theorem isDirectory_iff (h : SameDirectories fs gs) (p : Place) :
    fs.IsDirectory p ↔ gs.IsDirectory p :=
  exists_congr (h.directory_iff p)

theorem searchable_iff (h : SameDirectories fs gs) (p : Place) :
    fs.Searchable p ↔ gs.Searchable p := by
  simp only [Searchable, h.directory_iff, h.permits_eq]

end SameDirectories

/-- A walk needs the directories only. -/
theorem walk_congr (h : SameDirectories fs gs) (p : Place) (names : List Text) :
    fs.walk p names = .ok q ↔ gs.walk p names = .ok q := by
  induction names generalizing p with
  | nil => exact Iff.rfl
  | cons name rest ih => rw [walk_cons_eq_ok_iff, walk_cons_eq_ok_iff, h.searchable_iff, ih]

end Walk

/-! ## Locating -/

theorem search_eq_ok_iff {fs : FileSystem} {path : Text} {d : Destination} :
    fs.search path = .ok d ↔
      (path ≠ [] ∧ (FilePath.octets path).length ≤ FilePath.maxPath) ∧
        fs.walk (fs.start path) (FilePath.names path) = .ok d.place ∧
        d.asDirectory = FilePath.endsInSlash path := by
  obtain ⟨p, asDirectory⟩ := d
  unfold search
  -- An empty path and one that is too long are refused before the walk begins.
  split
  · next hempty => simp [List.isEmpty_iff.mp hempty]
  · next hempty =>
    rw [List.isEmpty_iff] at hempty
    split
    · next hlong =>
      have hnot : ¬ (FilePath.octets path).length ≤ FilePath.maxPath := Nat.not_le.mpr hlong
      simp [hnot]
    · next hlong =>
      rw [map_eq_ok_iff, and_iff_right ⟨hempty, Nat.not_lt.mp hlong⟩]
      constructor
      · rintro ⟨q, hwalk, heq⟩
        cases heq
        exact ⟨hwalk, rfl⟩
      · rintro ⟨hwalk, rfl⟩
        exact ⟨p, hwalk, rfl⟩

theorem locate_eq_ok_iff {fs : FileSystem} {path : Text} {d : Destination} :
    fs.locate path = .ok d ↔ FilePath.check path = .ok () ∧ fs.search path = .ok d := by
  rw [locate, bind_eq_ok_iff]
  simp only [mapError_eq_ok_iff]
  constructor
  · rintro ⟨⟨⟩, hcheck, hsearch⟩
    exact ⟨hcheck, hsearch⟩
  · rintro ⟨hcheck, hsearch⟩
    exact ⟨(), hcheck, hsearch⟩

/-- Where a path leads depends on the directories only. -/
theorem locate_congr {fs gs : FileSystem} (h : SameDirectories fs gs) (path : Text) (d : Destination) :
    fs.locate path = .ok d ↔ gs.locate path = .ok d := by
  have hstart : fs.start path = gs.start path := by rw [start, start, h.current_eq]
  rw [locate_eq_ok_iff, locate_eq_ok_iff, search_eq_ok_iff, search_eq_ok_iff, hstart, walk_congr h]

/-! ## Opening to write -/

/-- The place that a path leads to, if it can be opened to be written there. -/
def opens? (fs : FileSystem) (path : Text) : Option Place :=
  match fs.locate path with
  | .error _ => none
  | .ok d => if fs.writeRefusal? d = none then some d.place else none

theorem writeRefusal?_eq_none_iff (fs : FileSystem) (d : Destination) :
    fs.writeRefusal? d = none ↔
      d.asDirectory = false ∧ ¬ TooLong d.place ∧ ¬ fs.IsDirectory d.place ∧ fs.mayWrite d.place = true := by
  unfold writeRefusal?
  dsimp only
  cases hdir : d.asDirectory with
  | true => simp
  | false =>
    rw [if_neg Bool.false_ne_true, and_iff_right rfl]
    split
    · next hlook =>
      obtain ⟨hlong, hnode⟩ := lookFor_eq_missing_iff.mp hlook
      simp [hlong, IsDirectory, hnode]
    · next r hne hlook =>
      -- The only other reason not to find a place is its name.
      unfold lookFor at hlook
      split at hlook
      · next hlong => simp [TooLong, hlong]
      · split at hlook
        · cases hlook
        · cases hlook
          exact absurd rfl hne
    · next mode hlook =>
      obtain ⟨_, hnode⟩ := lookFor_eq_ok_iff.mp hlook
      simp [IsDirectory, hnode]
    · next n hne hlook =>
      obtain ⟨hlong, hnode⟩ := lookFor_eq_ok_iff.mp hlook
      have hfile : ¬ fs.IsDirectory d.place := by
        rintro ⟨mode, hmode⟩
        rw [hnode] at hmode
        exact hne mode (Option.some.inj hmode)
      simp [hlong, hfile]

/-- A path opens a place if it leads there, no directory stands there and it may be written. -/
theorem opens?_eq_some_iff {fs : FileSystem} {path : Text} {p : Place} :
    fs.opens? path = some p ↔
      fs.locate path = .ok ⟨p, false⟩ ∧ ¬ TooLong p ∧ ¬ fs.IsDirectory p ∧ fs.mayWrite p = true := by
  unfold opens?
  cases hlocate : fs.locate path with
  | error fault => simp
  | ok d =>
    have hrefusal := writeRefusal?_eq_none_iff fs d
    obtain ⟨q, asDirectory⟩ := d
    simp only [Except.ok.injEq, Destination.mk.injEq]
    constructor
    · intro h
      split at h
      · next hopen =>
        cases h
        obtain ⟨hfile, hopen⟩ := hrefusal.mp hopen
        exact ⟨⟨rfl, hfile⟩, hopen⟩
      · cases h
    · -- A path that has to be a directory is not opened to write, so the place alone is left.
      rintro ⟨⟨rfl, rfl⟩, hopen⟩
      rw [if_pos (hrefusal.mpr ⟨rfl, hopen⟩)]

/-- Where the same stands among the same directories the same can be written. -/
theorem mayWrite_congr {fs gs : FileSystem} {p : Place} (h : SameDirectories fs gs)
    (hnode : fs.node? p = gs.node? p) : fs.mayWrite p = gs.mayWrite p := by
  have hentries : ∀ q, fs.allowsEntries q = gs.allowsEntries q := by
    intro q
    have hdirectory := h.directory_iff q
    unfold allowsEntries
    rw [h.permits_eq]
    split
    · next mode hmode => rw [(hdirectory mode).mp hmode]
    · next hnot =>
      split
      · next mode hmode => exact absurd ((hdirectory mode).mpr hmode) (hnot mode)
      · rfl
  rw [mayWrite, mayWrite, allows, allows, hnode, hentries, h.permits_eq]

/-- What can be opened once something else stands at a place that can be written could be opened before. -/
theorem opens?_of_opens? {fs gs : FileSystem} {path : Text} {p q : Place} (h : SameDirectories gs fs)
    (hnode : ∀ p, p ≠ q → gs.node? p = fs.node? p) (hq : fs.mayWrite q = true)
    (hopen : gs.opens? path = some p) : fs.opens? path = some p := by
  rw [opens?_eq_some_iff, locate_congr h, h.isDirectory_iff] at hopen
  obtain ⟨hlocate, hlong, hdir, hwrite⟩ := hopen
  refine opens?_eq_some_iff.mpr ⟨hlocate, hlong, hdir, ?_⟩
  by_cases hp : p = q
  · rw [hp]
    exact hq
  · rw [← mayWrite_congr h (hnode p hp)]
    exact hwrite

end CanonStore.FileSystem
