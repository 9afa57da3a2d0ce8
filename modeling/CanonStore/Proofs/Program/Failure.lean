import CanonStore.Program.Run
import CanonStore.Proofs.FileSystem.Handle
import CanonStore.Proofs.PathName

/-!
# Failures on the way through a run

A stage of a run may fail *mildly*, with a fault that the run turns into an exit code, or *wildly*, with one
that passes through the run. `Requires mild wild r p` says what a stage needs: where `p` holds every failure
is mild, and where it does not there is a wild one. Stages in a row need what each of them needs
(`Requires.bind`).
-/

namespace CanonStore

/-- The outcome needs `p`: with it every failure is mild, and without it there is a wild failure. -/
structure Requires {ε α : Type} (mild wild : ε → Prop) (r : Except ε α) (p : Prop) : Prop where
  mild_of : p → ∀ e, r = .error e → mild e
  wild_of : ¬ p → ∃ e, r = .error e ∧ wild e

namespace Requires

variable {ε δ α β : Type} {mild wild : ε → Prop} {r : Except ε α} {p q : Prop} {e : ε}

theorem of_ok (a : α) (hp : p) : Requires mild wild (.ok a) p where
  mild_of _ _ h := nomatch h
  wild_of hnot := absurd hp hnot

theorem of_mild (he : mild e) (hp : p) : Requires mild wild (.error e : Except ε α) p where
  mild_of _ _ h := Except.error.inj h ▸ he
  wild_of hnot := absurd hp hnot

theorem of_wild (he : wild e) (hp : ¬ p) : Requires mild wild (.error e : Except ε α) p where
  mild_of h := absurd h hp
  wild_of _ := ⟨e, rfl, he⟩

theorem congr (h : Requires mild wild r p) (hpq : p ↔ q) : Requires mild wild r q :=
  propext hpq ▸ h

/-- The same outcome seen by coarser kinds of failures. -/
theorem imp {mild' wild' : ε → Prop} (h : Requires mild wild r p) (hmild : ∀ e, mild e → mild' e)
    (hwild : ∀ e, wild e → wild' e) : Requires mild' wild' r p where
  mild_of hp e he := hmild e (h.mild_of hp e he)
  wild_of hnot :=
    let ⟨e, he, hw⟩ := h.wild_of hnot
    ⟨e, he, hwild e hw⟩

/-- A failure that takes the place of another one. -/
theorem of_error {mild' wild' : δ → Prop} {d : δ} (h : Requires mild wild (.error e : Except ε α) p)
    (hmild : mild e → mild' d) (hwild : wild e → wild' d) :
    Requires mild' wild' (.error d : Except δ β) p where
  mild_of hp _ hd := Except.error.inj hd ▸ hmild (h.mild_of hp e rfl)
  wild_of hnot := by
    obtain ⟨_, he, hw⟩ := h.wild_of hnot
    cases he
    exact ⟨d, rfl, hwild hw⟩

theorem mapError {mild' wild' : δ → Prop} {g : ε → δ} (h : Requires mild wild r p)
    (hmild : ∀ e, mild e → mild' (g e)) (hwild : ∀ e, wild e → wild' (g e)) :
    Requires mild' wild' (r.mapError g) p where
  mild_of hp d hd := by
    obtain ⟨e, he, rfl⟩ := mapError_eq_error_iff.mp hd
    exact hmild e (h.mild_of hp e he)
  wild_of hnot := by
    obtain ⟨e, he, hw⟩ := h.wild_of hnot
    exact ⟨g e, mapError_eq_error_iff.mpr ⟨e, he, rfl⟩, hwild e hw⟩

theorem map {f : α → β} (h : Requires mild wild r p) : Requires mild wild (r.map f) p where
  mild_of hp e he := h.mild_of hp e (map_eq_error_iff.mp he)
  wild_of hnot := by
    obtain ⟨e, he, hw⟩ := h.wild_of hnot
    exact ⟨e, map_eq_error_iff.mpr he, hw⟩

/-- A stage, and another one that goes on with what the first one gives. -/
theorem bind {f : α → Except ε β} {q : α → Prop} (h : Requires mild wild r p)
    (hf : ∀ a, r = .ok a → Requires mild wild (f a) (q a)) :
    Requires mild wild (r >>= f) (p ∧ ∀ a, r = .ok a → q a) where
  mild_of := by
    rintro ⟨hp, hq⟩ e he
    rcases bind_eq_error_iff.mp he with hr | ⟨a, ha, he⟩
    · exact h.mild_of hp e hr
    · exact (hf a ha).mild_of (hq a ha) e he
  wild_of hnot := by
    by_cases hp : p
    · -- The first stage has what it needs, so the second one lacks something.
      obtain ⟨a, ha, hqa⟩ : ∃ a, r = .ok a ∧ ¬ q a := by
        simpa only [not_and, hp, not_forall, exists_prop, true_imp_iff] using hnot
      obtain ⟨e, he, hw⟩ := (hf a ha).wild_of hqa
      exact ⟨e, bind_eq_error_iff.mpr (.inr ⟨a, ha, he⟩), hw⟩
    · obtain ⟨e, he, hw⟩ := h.wild_of hp
      exact ⟨e, bind_eq_error_iff.mpr (.inl he), hw⟩

/-- A stage after which nothing can fail wildly. -/
theorem bind_ok {f : α → Except ε β} (h : Requires mild wild r p) (hf : ∀ a, ∃ b, f a = .ok b) :
    Requires mild wild (r >>= f) p := by
  refine (h.bind (q := fun _ => True) fun a _ => ?_).congr ⟨And.left, fun hp => ⟨hp, fun _ _ => trivial⟩⟩
  obtain ⟨b, hb⟩ := hf a
  rw [hb]
  exact of_ok b trivial

theorem of_eq_ok {a : α} (h : Requires mild wild (.ok a) p) : p := by
  by_contra hnot
  obtain ⟨_, he, _⟩ := h.wild_of hnot
  cases he

theorem mild_or_wild (h : Requires mild wild r p) (he : r = .error e) : mild e ∨ wild e := by
  by_cases hp : p
  · exact .inl (h.mild_of hp e he)
  · obtain ⟨e', he', hw⟩ := h.wild_of hp
    cases he.symm.trans he'
    exact .inr hw

end Requires

/-! ## Faults of a command -/

namespace Fault

/-- The exit code that a run makes of a fault of its command, if it deals with the fault. -/
def exitCode? (fault : Fault) : Option ExitCode :=
  match fault with
  | .plain .interrupted _ | .unshown .interrupted _ => some .failure
  | .report _ _ _ => some (if fault.isFatal then .fatal else .failure)
  | _ => none

/-- A run deals with the fault, and it is not fatal. -/
def IsMild (fault : Fault) : Prop := fault.exitCode? = some .failure

/-- The fault passes through a run. -/
def IsWild (fault : Fault) : Prop := fault.exitCode? = none

/-- A fault of showing a value passes through a run. -/
theorem exitCode?_display (fault : DisplayFault) : fault.toFault.exitCode? = none := by cases fault <;> rfl

theorem exitCode?_make (kind : ReportKind) (message : Text) (path : Option Text)
    (details : List (Value × Value)) (cause : Option Fault) :
    (make kind message path details cause).exitCode? = some (if kind.isFatal then .fatal else .failure) :=
  rfl

end Fault

/-! ## Failures of file operations -/

/-- The system refused the operation. -/
def FileFault.IsRefusal : FileFault → Prop
  | .system _ => True
  | _ => False

/-- The system was not even asked, or it could not answer. -/
def FileFault.IsNoRefusal (fault : FileFault) : Prop := ¬ fault.IsRefusal

namespace FileSystem

open FileFault (IsRefusal IsNoRefusal)

variable (fs : FileSystem) (path : Text)

theorem check_requires :
    Requires IsRefusal IsNoRefusal (FilePath.check path) (FilePath.check path = .ok ()) := by
  unfold FilePath.check
  split
  · exact .of_wild not_false nofun
  · split
    · exact .of_wild not_false nofun
    · exact .of_ok () rfl

/-- Locating a path needs one that the system can be asked for. -/
theorem locate_requires : Requires IsRefusal IsNoRefusal (fs.locate path) (FilePath.check path = .ok ()) := by
  refine ((check_requires path).bind (q := fun _ => True) fun _ _ => ?_).congr (by simp)
  cases fs.search path with
  | error r => exact .of_mild trivial trivial
  | ok d => exact .of_ok d trivial

theorem openFile_requires (purpose : Purpose) :
    Requires IsRefusal IsNoRefusal (fs.openFile purpose path) (FilePath.check path = .ok ()) := by
  refine ((fs.locate_requires path).bind (q := fun _ => True) fun d _ => ?_).congr (by simp)
  cases fs.openAt purpose d with
  | error r => exact .of_mild trivial trivial
  | ok o => exact .of_ok o trivial

/-- The system can be asked for the path, and it does not lead to a file without end. -/
def Answers (fs : FileSystem) (path : Text) : Prop :=
  FilePath.check path = .ok () ∧ (fs.readFile path).1 ≠ .error .endless

/-- An open file that is read and closed again needs an end, unless it cannot be closed. -/
theorem closeAfter_readAll_requires (h : Handle) :
    Requires IsRefusal IsNoRefusal (fs.closeAfter h (fs.readAll h)).1
      ((fs.closeAfter h (fs.readAll h)).1 ≠ .error .endless) := by
  unfold closeAfter
  rcases fs.close h with ⟨fault | _, files⟩
  · exact .of_mild trivial nofun
  · show Requires _ _ (fs.readAll h) (fs.readAll h ≠ .error .endless)
    unfold readAll
    split
    · exact .of_mild trivial nofun
    · exact .of_ok _ nofun
    · exact .of_wild not_false fun hne => hne rfl
    · exact .of_ok _ nofun

/-- Reading a file needs a path to ask for and an end. -/
theorem readFile_requires : Requires IsRefusal IsNoRefusal (fs.readFile path).1 (fs.Answers path) := by
  have hopen := fs.openFile_requires path .read
  rw [readFile_fst]
  refine (hopen.bind fun o _ => o.2.closeAfter_readAll_requires o.1).congr ?_
  unfold Answers
  rw [readFile_fst]
  apply and_congr_right
  intro hcheck
  constructor
  · intro hall hend
    rcases bind_eq_error_iff.mp hend with hr | ⟨o, ho, hend⟩
    · exact hopen.mild_of hcheck _ hr
    · exact hall o ho hend
  · intro hend o ho hall
    exact hend (bind_eq_error_iff.mpr (.inr ⟨o, ho, hall⟩))

end FileSystem

end CanonStore
