import CanonStore.PathName
import CanonStore.Proofs.FileSystem.Walk
import CanonStore.Proofs.Text.Pieces
import Mathlib.Data.List.Flatten
import Mathlib.Data.List.TakeWhile

/-!
# Normal texts of paths

The normal text of a path is what is left of it when names that mean nothing are left out, so it is no
longer and holds no other code points (`normalText_sublist`). Where a path can name a file (`NamesFile`), its
normal text leads to the same place, or nowhere for the same reason (`search_normalText`): the names left out
were the point, and every other name asks for the same directory. A path that can be opened to be written can
name a file (`namesFile_of_search`).
-/

namespace CanonStore

namespace PathName

open FilePath (endsInSlash)

/-- The names of a path that mean something. -/
def properNames (path : Text) : List Text := (Text.splitOn 0x2F path).filter isProper

/-- The proper names of a path are all but the points. -/
theorem properNames_eq (path : Text) :
    properNames path = (FilePath.names path).filter fun n => n ≠ Text.ofString "." := by
  rw [properNames, FilePath.names, List.filter_filter]
  apply List.filter_congr
  intro n _
  simp only [isProper, Bool.and_comm]

theorem normalText_eq {path : Text} (h : properNames path ≠ []) :
    normalText path = (rootOf path).text ++ Text.joinWith "/" (properNames path) := by
  have hempty : (properNames path).isEmpty = false := List.isEmpty_eq_false_iff.mpr h
  show (if (rootOf path = .none && (properNames path).isEmpty) = true then _ else _) = _
  rw [hempty, Bool.and_false, if_neg Bool.false_ne_true]
  rfl

/-- No slash is left in a name. -/
theorem not_mem_of_mem_properNames {path n : Text} (h : n ∈ properNames path) : (0x2F : CodePoint) ∉ n :=
  Text.not_mem_of_mem_splitOn (List.mem_of_mem_filter h)

theorem ne_nil_of_mem_properNames {path n : Text} (h : n ∈ properNames path) : n ≠ [] := by
  have hproper := List.of_mem_filter h
  rintro rfl
  exact absurd hproper (by decide)

/-! ## Slashes in front -/

theorem properNames_slashes (count : Nat) (path : Text) :
    properNames (List.replicate count 0x2F ++ path) = properNames path := by
  induction count with
  | zero => rfl
  | succ count ih =>
    rw [List.replicate_succ, List.cons_append, properNames, Text.splitOn_cons_self]
    exact ih

theorem names_cons_slash (path : Text) : FilePath.names (0x2F :: path) = FilePath.names path := by
  rw [FilePath.names, Text.splitOn_cons_self]
  rfl

theorem names_root_append (root : PathRoot) (path : Text) :
    FilePath.names (root.text ++ path) = FilePath.names path := by
  cases root with
  | none => rfl
  | slash => exact names_cons_slash path
  | doubleSlash => exact (names_cons_slash _).trans (names_cons_slash path)

/-- A path is some slashes and a text that starts with none; its root has no more slashes than that, and
has one if there is one. -/
theorem exists_slashes (path : Text) :
    ∃ count rest, path = List.replicate count 0x2F ++ rest ∧ rest.head? ≠ some 0x2F ∧
      (rootOf path).text.Sublist (List.replicate count 0x2F) ∧ (rootOf path = .none ↔ count = 0) := by
  have hsplit := List.takeWhile_append_dropWhile (p := fun c : CodePoint => c = '/') (l := path)
  have hslashes : path.takeWhile (fun c : CodePoint => c = '/') =
      List.replicate (path.takeWhile fun c : CodePoint => c = '/').length 0x2F := by
    refine List.eq_replicate_of_mem fun c hc => ?_
    have hslash := List.mem_takeWhile_imp hc
    exact of_decide_eq_true hslash
  have hrest : (path.dropWhile fun c : CodePoint => c = '/').head? ≠ some 0x2F := by
    intro h
    have hnot := List.head?_dropWhile_not (fun c : CodePoint => c = '/') path
    rw [h] at hnot
    exact absurd hnot (by decide)
  rw [hslashes] at hsplit
  unfold rootOf
  generalize (path.takeWhile fun c : CodePoint => c = '/').length = count at hsplit
  refine ⟨count, _, hsplit.symm, hrest, ?_⟩
  -- Two slashes are a root of their own; any other number of them is one slash.
  match count with
  | 0 => exact ⟨.slnil, by simp⟩
  | 1 => exact ⟨.refl _, by simp⟩
  | 2 => exact ⟨.refl _, by simp⟩
  | count + 3 => exact ⟨(List.replicate_sublist_replicate 0x2F).mpr (by omega : 1 ≤ count + 3), by simp⟩

/-- The normal text of a path that names something is left when parts of it are taken out. -/
theorem normalText_sublist {path : Text} (h : properNames path ≠ []) : (normalText path).Sublist path := by
  rw [normalText_eq h]
  obtain ⟨count, rest, hpath, _, hroot, _⟩ := exists_slashes path
  have hnames : properNames path = properNames rest := by
    rw [hpath, properNames_slashes]
  have hjoin : (Text.joinWith "/" (properNames rest)).Sublist rest := by
    have hsub := Text.joinWith_sublist [0x2F] (List.filter_sublist (p := isProper) (l := Text.splitOn 0x2F rest))
    rwa [Text.joinWith_splitOn] at hsub
  rw [hnames]
  conv_rhs => rw [hpath]
  exact hroot.append hjoin

/-! ## What the normal text reads as -/

section Normal

variable {path : Text} (h : properNames path ≠ [])

include h

/-- The normal text of a path has the proper names of the path. -/
theorem names_normalText : FilePath.names (normalText path) = properNames path := by
  have hpieces : Text.splitOn 0x2F (Text.joinWith [0x2F] (properNames path)) = properNames path :=
    Text.splitOn_joinWith h fun _ => not_mem_of_mem_properNames
  rw [normalText_eq h, names_root_append, FilePath.names]
  show List.filter _ (Text.splitOn 0x2F (Text.joinWith [0x2F] (properNames path))) = _
  rw [hpieces, List.filter_eq_self]
  intro n hn
  simpa using ne_nil_of_mem_properNames hn

theorem normalText_ne_nil : normalText path ≠ [] := by
  intro hnil
  have hread := names_normalText h
  rw [hnil] at hread
  exact h hread.symm

/-- The normal text starts at the root exactly if the path does. -/
theorem head?_normalText : (normalText path).head? = some 0x2F ↔ path.head? = some 0x2F := by
  obtain ⟨count, rest, hpath, hrest, _, hroot⟩ := exists_slashes path
  rw [normalText_eq h]
  cases count with
  | zero =>
    -- There is no slash in front of the path, and no name starts with one.
    rw [hroot.mpr rfl]
    refine iff_of_false ?_ (by rwa [hpath])
    obtain ⟨n, ns, hnames⟩ := List.exists_cons_of_ne_nil h
    have hn : n ∈ properNames path := hnames ▸ List.mem_cons_self
    obtain ⟨c, n', rfl⟩ := List.exists_cons_of_ne_nil (ne_nil_of_mem_properNames hn)
    have hc : c ≠ 0x2F := fun hc => not_mem_of_mem_properNames hn (hc ▸ List.mem_cons_self)
    rw [hnames]
    cases ns with
    | nil => exact fun hhead => hc (Option.some.inj hhead)
    | cons _ _ => exact fun hhead => hc (Option.some.inj hhead)
  | succ count =>
    refine iff_of_true ?_ (by rw [hpath]; rfl)
    cases hr : rootOf path with
    | none => exact absurd (hroot.mp hr) (Nat.succ_ne_zero count)
    | slash => rfl
    | doubleSlash => rfl

/-- The normal text does not end in a slash. -/
theorem endsInSlash_normalText : FilePath.endsInSlash (normalText path) = false := by
  obtain ⟨ns, n, hnames⟩ := (List.eq_nil_or_concat' (properNames path)).resolve_left h
  have hn : n ∈ properNames path := by
    rw [hnames]
    exact List.mem_append_right _ List.mem_cons_self
  have hne := ne_nil_of_mem_properNames hn
  have hlast : (normalText path).getLast? = some (n.getLast hne) := by
    rw [normalText_eq h, hnames, List.getLast?_append, Text.getLast?_joinWith hne,
      List.getLast?_eq_some_getLast hne, Option.some_or]
  rw [FilePath.endsInSlash, hlast, decide_eq_false_iff_not]
  intro heq
  exact not_mem_of_mem_properNames hn (Option.some.inj heq ▸ List.getLast_mem hne)

end Normal

end PathName

/-! ## Paths that can name a file -/

namespace FilePath

open PathName

/-- A text can be handed to the system if all its surrogates stand for octets. -/
theorem unencodableFrom?_eq_none_iff (path : Text) (position : Nat) :
    unencodableFrom? position path = none ↔ ∀ c ∈ path, c.isSurrogate = true → isEscape c = true := by
  induction path generalizing position with
  | nil => exact iff_of_true rfl (List.forall_mem_nil _)
  | cons c rest ih =>
    rw [unencodableFrom?, List.forall_mem_cons, ← ih (position + 1)]
    cases c.isSurrogate <;> cases isEscape c <;> simp

/-- A text is a path unless it has a zero, or a surrogate that stands for no octet. -/
theorem check_eq_ok_iff {path : Text} :
    check path = .ok () ↔ (∀ c ∈ path, c.isSurrogate = true → isEscape c = true) ∧ (0 : CodePoint) ∉ path := by
  unfold check
  cases hfault : unencodableFrom? 0 path with
  | some fault =>
    have hnot := (not_congr (unencodableFrom?_eq_none_iff path 0)).mp (by simp [hfault])
    exact iff_of_false (by simp) fun h => hnot h.1
  | none =>
    rw [← unencodableFrom?_eq_none_iff path 0, eq_true hfault, true_and]
    by_cases hzero : (0 : CodePoint) ∈ path
    · simp [hzero]
    · simp [hzero]

/-- A path without names ends in a slash, if it is a path at all. -/
theorem endsInSlash_of_names_eq_nil {path : Text} (hne : path ≠ []) (h : names path = []) :
    endsInSlash path = true := by
  induction path with
  | nil => exact absurd rfl hne
  | cons c rest ih =>
    by_cases hc : c = 0x2F
    · subst hc
      rw [PathName.names_cons_slash] at h
      cases rest with
      | nil => rfl
      | cons d rest => exact ih (List.cons_ne_nil d rest) h
    · -- The first piece starts with the code point.
      obtain ⟨piece, pieces, hpieces⟩ := List.exists_cons_of_ne_nil (Text.splitOn_ne_nil 0x2F rest)
      rw [names, Text.splitOn_cons_of_ne hc hpieces] at h
      cases h

/-- The path can name a file as it is written: it is not too long, and ends with a name, not in a slash or a
point. -/
structure NamesFile (path : Text) : Prop where
  length_le : (octets path).length ≤ maxPath
  endsInSlash_eq : endsInSlash path = false
  last : ∃ name, (names path).getLast? = some name ∧ name ≠ Text.ofString "."

variable {path : Text}

theorem NamesFile.properNames_ne_nil (h : NamesFile path) : properNames path ≠ [] := by
  obtain ⟨name, hlast, hpoint⟩ := h.last
  have hmem : name ∈ properNames path := by
    rw [properNames_eq, List.mem_filter, decide_eq_true_eq]
    exact ⟨List.mem_of_getLast? hlast, hpoint⟩
  exact List.ne_nil_of_mem hmem

/-- The normal text of a path holds all its code points but slashes and points. -/
theorem mem_normalText (path : Text) : ∀ c ∈ path, c = 0x2F ∨ c = 0x2E ∨ c ∈ normalText path := by
  suffices hall : ∀ t ∈ Text.splitOn 0x2F path, ∀ c ∈ t, c = 0x2F ∨ c = 0x2E ∨ c ∈ normalText path by
    have hslash : ∀ c ∈ ([0x2F] : Text), c = 0x2F ∨ c = 0x2E ∨ c ∈ normalText path :=
      fun c hc => .inl (List.mem_singleton.mp hc)
    have hjoined := Text.forall_mem_joinWith hslash hall
    rwa [Text.joinWith_splitOn] at hjoined
  intro t ht c hc
  by_cases hproper : isProper t = true
  · have htn : t ∈ properNames path := List.mem_filter.mpr ⟨ht, hproper⟩
    have hsub : t.Sublist (Text.joinWith "/" (properNames path)) :=
      Text.joinWith_sublist "/" (List.singleton_sublist.mpr htn)
    rw [normalText_eq (List.ne_nil_of_mem htn)]
    exact .inr (.inr (List.mem_append_right _ (hsub.subset hc)))
  · simp only [isProper, Bool.and_eq_true, Bool.not_eq_true', decide_eq_true_eq, not_and, not_not,
      List.isEmpty_eq_false_iff] at hproper
    rw [hproper (List.ne_nil_of_mem hc)] at hc
    exact .inr (.inl (List.mem_singleton.mp hc))

/-- Slashes and points keep no text from being a path. -/
theorem check_of_check_normalText (h : check (normalText path) = .ok ()) : check path = .ok () := by
  obtain ⟨hescape, hzero⟩ := check_eq_ok_iff.mp h
  refine check_eq_ok_iff.mpr ⟨fun c hc hsurrogate => ?_, fun hc => ?_⟩
  · rcases mem_normalText path c hc with rfl | rfl | hnormal
    · exact absurd hsurrogate (by decide)
    · exact absurd hsurrogate (by decide)
    · exact hescape c hnormal hsurrogate
  · rcases mem_normalText path 0 hc with heq | heq | hnormal
    · exact absurd heq (by decide)
    · exact absurd heq (by decide)
    · exact hzero hnormal

/-- The normal text of a path is a path. -/
theorem check_normalText (hnames : properNames path ≠ []) (h : check path = .ok ()) :
    check (normalText path) = .ok () := by
  have hsub := normalText_sublist hnames
  obtain ⟨hescape, hzero⟩ := check_eq_ok_iff.mp h
  exact check_eq_ok_iff.mpr ⟨fun c hc => hescape c (hsub.subset hc), fun hc => hzero (hsub.subset hc)⟩

end FilePath

/-! ## Walking along the names that mean something -/

namespace FileSystem

open PathName
open FilePath (NamesFile)

variable {fs : FileSystem} {p q : Place} {path : Text}

/-- A point leads nowhere else. -/
theorem next_point (p : Place) : p.next (Text.ofString ".") = p := if_pos rfl

/-- A point stays where it is, or every name is refused there for the same reason. -/
theorem step_point (fs : FileSystem) (p : Place) :
    fs.step p (Text.ofString ".") = .ok p ∨ ∃ r, ∀ n : Text, fs.step p n = .error r := by
  cases hlook : fs.lookFor p with
  | error r => exact .inr ⟨r, fun n => by rw [step, hlook]⟩
  | ok node =>
    cases node with
    | directory mode =>
      cases hsearch : fs.permits .search p mode with
      | true =>
        left
        rw [step, hlook]
        exact (if_pos hsearch).trans (congrArg Except.ok (next_point p))
      | false =>
        refine .inr ⟨.denied, fun n => ?_⟩
        rw [step, hlook]
        exact if_neg (Bool.eq_false_iff.mp hsearch)
    | file content mode => exact .inr ⟨.notDirectory, fun n => by rw [step, hlook]⟩
    | device kind => exact .inr ⟨.notDirectory, fun n => by rw [step, hlook]⟩

/-- A point before another name asks for the directory that the name asks for as well. -/
theorem walk_point_cons (p : Place) (name : Text) (rest : List Text) :
    fs.walk p (Text.ofString "." :: name :: rest) = fs.walk p (name :: rest) := by
  rcases fs.step_point p with hpoint | ⟨r, hstep⟩
  · rw [walk, hpoint]
    rfl
  · rw [walk, hstep, walk, hstep]
    rfl

/-- A walk does without its points, unless it ends in one. -/
theorem walk_filter_eq {names : List Text} (h : names.getLast? ≠ some (Text.ofString ".")) (p : Place) :
    fs.walk p (names.filter fun n => n ≠ Text.ofString ".") = fs.walk p names := by
  induction names generalizing p with
  | nil => rfl
  | cons name rest ih =>
    -- A point is left out only if a name follows, on which the walk stops in the same way.
    have hrest : rest.getLast? ≠ some (Text.ofString ".") := by
      intro hlast
      rw [List.getLast?_cons, hlast] at h
      exact h rfl
    by_cases hname : name = Text.ofString "."
    · subst hname
      rw [List.filter_cons_of_neg (by simp), ih hrest]
      cases rest with
      | nil => exact absurd rfl h
      | cons other rest => exact (walk_point_cons p other rest).symm
    · rw [List.filter_cons_of_pos (by simpa using hname), walk, walk]
      cases fs.step p name with
      | error r => rfl
      | ok q => exact ih hrest q

/-- A walk that ends in a point ends at a directory. -/
theorem isDirectory_of_walk_point {names : List Text}
    (h : fs.walk p (names ++ [Text.ofString "."]) = .ok q) : fs.IsDirectory q := by
  induction names generalizing p with
  | nil =>
    obtain ⟨⟨_, mode, hdir, _⟩, hend⟩ := walk_cons_eq_ok_iff.mp h
    rw [next_point] at hend
    cases hend
    exact ⟨mode, hdir⟩
  | cons name rest ih => exact ih (walk_cons_eq_ok_iff.mp h).2

/-- Where anything but a directory may stand, a path can name a file. -/
theorem namesFile_of_search {d : Destination} (h : fs.search path = .ok d) (hslash : d.asDirectory = false)
    (hdir : ¬ fs.IsDirectory d.place) : NamesFile path := by
  obtain ⟨⟨hne, hlength⟩, hwalk, hends⟩ := search_eq_ok_iff.mp h
  rw [hslash] at hends
  refine ⟨hlength, hends.symm, ?_⟩
  rcases List.eq_nil_or_concat' (FilePath.names path) with hnil | ⟨before, name, hnames⟩
  · rw [FilePath.endsInSlash_of_names_eq_nil hne hnil] at hends
    cases hends
  · rw [hnames] at hwalk ⊢
    refine ⟨name, List.getLast?_concat, ?_⟩
    rintro rfl
    exact hdir (isDirectory_of_walk_point hwalk)

/-- A path that can name a file leads where its normal text does, or nowhere for the same reason. -/
theorem search_normalText (fs : FileSystem) (h : NamesFile path) :
    fs.search (normalText path) = fs.search path := by
  have hnames := h.properNames_ne_nil
  have hsub := normalText_sublist hnames
  have hpath : path ≠ [] := by
    rintro rfl
    exact normalText_ne_nil hnames (List.sublist_nil.mp hsub)
  have hlength : (FilePath.octets (normalText path)).length ≤ FilePath.maxPath :=
    Nat.le_trans (hsub.flatMap _).length_le h.length_le
  have hstart : fs.start (normalText path) = fs.start path := by
    simp only [start, head?_normalText hnames]
  have hpoint : (FilePath.names path).getLast? ≠ some (Text.ofString ".") := by
    obtain ⟨name, hlast, hne⟩ := h.last
    rw [hlast]
    exact fun heq => hne (Option.some.inj heq)
  -- The normal text passes the checks in front of the walk because the path does: it is no longer and not
  -- empty.
  have hunfold : ∀ t : Text, t ≠ [] → (FilePath.octets t).length ≤ FilePath.maxPath →
      fs.search t = (fs.walk (fs.start t) (FilePath.names t)).map (⟨·, FilePath.endsInSlash t⟩) := by
    intro t ht hle
    rw [search, if_neg (by simpa using ht), if_neg (Nat.not_lt.mpr hle)]
  rw [hunfold _ (normalText_ne_nil hnames) hlength, hunfold _ hpath h.length_le, names_normalText hnames,
    endsInSlash_normalText hnames, hstart, h.endsInSlash_eq, properNames_eq, walk_filter_eq hpoint]

/-- The normal text of a path that leads to a file leads to the same place. -/
theorem locate_normalText (hlocate : fs.locate path = .ok ⟨p, false⟩) (hdir : ¬ fs.IsDirectory p) :
    fs.locate (normalText path) = .ok ⟨p, false⟩ := by
  obtain ⟨hcheck, hsearch⟩ := locate_eq_ok_iff.mp hlocate
  have hnames := namesFile_of_search hsearch rfl hdir
  rw [locate_eq_ok_iff, search_normalText fs hnames]
  exact ⟨FilePath.check_normalText hnames.properNames_ne_nil hcheck, hsearch⟩

end FileSystem

end CanonStore
