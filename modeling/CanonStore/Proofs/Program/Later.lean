import CanonStore.Proofs.Program.Frame

/-!
# What a later run finds

A run may come after another one in the same environment, with nothing changed since but the log file. It gets the
configuration that the earlier one had, if that does not stand in a file that has changed
(`loadConfig_of_sameDirectories`), and opens the same log, if the process may still extend it
(`logPlace?_of_sameDirectories`).
-/

namespace CanonStore.Program

open FileSystem

/-- Where a run finds the file that it takes its configuration from, if it takes it from one. -/
def configPlace? (fs : FileSystem) (path? : Option Text) : Option Place :=
  path?.bind fun path => (fs.locate (PathName.normalText path)).toOption.map Destination.place

/-- The world is one that a run finds after another one, which left the files in an environment: nothing has changed
since but the log file, and the process may read what stands at a place and extend the log. -/
structure Follows (env : Environment) (files : FileSystem) (log? : Option Place) (p : Place) (v : World) : Prop where
  env_eq : v.env = env
  files_eq : SameBut (fun q => log? = some q) files v.files
  readable : v.files.allows .read p = true
  reading : v.files.medium.reading p = none
  extendable : ∀ q, log? = some q → v.files.mayWrite q = true

section

variable {w v : World} {c : Config} {path? : Option Text} {fs gs : FileSystem} {value : Value}

/-! ## The configuration -/

theorem readConfigFile_congr {path : Text} (hpath : gs.hasPath path = fs.hasPath path)
    (hread : (gs.readFile path).1 = (fs.readFile path).1) :
    (readConfigFile gs path).1 = (readConfigFile fs path).1 := by
  unfold readConfigFile
  have hfile : fs.readFile path = ((fs.readFile path).1, fs) := readFile_of_fst rfl
  rw [hpath, readFile_of_fst hread, hfile]
  cases fs.hasPath path with
  | error fault => rfl
  | ok found =>
    cases found with
    | false => rfl
    | true => cases (fs.readFile path).1 <;> rfl

theorem hasPath_of_readConfigFile {path : Text} (h : (readConfigFile fs path).1 = .ok c) :
    fs.hasPath path = .ok true := by
  unfold readConfigFile at h
  cases hpath : fs.hasPath path with
  | error fault =>
    rw [hpath] at h
    cases h
  | ok found =>
    cases found with
    | true => rfl
    | false =>
      rw [hpath] at h
      cases h

/-- The same configuration is found as long as its file stays what it is. -/
theorem loadConfig_of_sameDirectories (hdirectories : SameDirectories v.files w.files)
    (hmedium : v.files.medium = w.files.medium) (henv : v.env = w.env)
    (hnode : ∀ q, configPlace? w.files path? = some q → v.files.node? q = w.files.node? q)
    (hload : (loadConfig path? w).1 = .ok c) : (loadConfig path? v).1 = .ok c := by
  cases path? with
  | none =>
    rw [loadConfig, henv]
    exact hload
  | some path =>
    rw [loadConfig_file] at hload ⊢
    obtain ⟨c', hfile, _⟩ := bind_eq_ok_iff.mp hload
    obtain ⟨d, hlocate⟩ := locate_of_hasPath (hasPath_of_readConfigFile hfile)
    have hsame : v.files.node? d.place = w.files.node? d.place := by
      apply hnode
      rw [configPlace?, Option.bind_some, hlocate]
      rfl
    rw [readConfigFile_congr (hasPath_congr hdirectories hlocate hsame)
      (readFile_congr hdirectories hmedium hlocate hsame), henv]
    exact hload

/-! ## The log -/

theorem logPath?_congr (h : SameDirectories gs fs) (value : Value) : logPath? gs value = logPath? fs value := by
  simp only [logPath?, absolutePath, h.current_eq]

theorem logOpens_iff : LogOpens fs value ↔ value.isTrue = false ∨ (logPlace? fs value).isSome := by
  unfold LogOpens logPlace? logPath?
  cases htrue : value.isTrue with
  | false => simp
  | true => cases value <;> simp

/-- The log stays where it is, as long as the process may extend it. -/
theorem logPlace?_of_sameDirectories (h : SameDirectories gs fs) (hlog : LogOpens fs value)
    (hwrite : ∀ q, logPlace? fs value = some q → gs.mayWrite q = true) : logPlace? gs value = logPlace? fs value := by
  rcases logOpens_iff.mp hlog with hfalse | hsome
  · have hnone : ∀ files, logPlace? files value = none := fun files => by
      simp [logPlace?, logPath?, hfalse]
    rw [hnone, hnone]
  · obtain ⟨q, hplace⟩ := Option.isSome_iff_exists.mp hsome
    obtain ⟨path, hpath, hopen⟩ := Option.bind_eq_some_iff.mp hplace
    obtain ⟨hlocate, hlong, hdir, _⟩ := opens?_eq_some_iff.mp hopen
    have hstill : gs.opens? path = some q := opens?_eq_some_iff.mpr
      ⟨(locate_congr h path _).mpr hlocate, hlong, mt (h.isDirectory_iff q).mp hdir, hwrite q hplace⟩
    rw [hplace, logPlace?, logPath?_congr h, hpath]
    exact hstill

theorem logOpens_of_sameDirectories (h : SameDirectories gs fs) (hlog : LogOpens fs value)
    (hwrite : ∀ q, logPlace? fs value = some q → gs.mayWrite q = true) : LogOpens gs value := by
  rw [logOpens_iff, logPlace?_of_sameDirectories h hlog hwrite]
  exact logOpens_iff.mp hlog

end

end CanonStore.Program
