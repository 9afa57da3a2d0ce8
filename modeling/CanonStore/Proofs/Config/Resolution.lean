import CanonStore.Config
import CanonStore.Proofs.PathName.Spelling

/-!
# Paths under a base directory

A base directory that is no path at all matters to relative paths only; every other one stands for a text
(`baseText?`), and a path lies where the path that this text spells leads it (`resolveIn_eq_ok_iff`). Such paths
are in normal form, and joining them is associative. So the path of a text is told by what it spells, and a
relative text may be cut at a slash, its first part becoming the base directory of the second
(`resolveIn_append`).
-/

namespace CanonStore

namespace PathName

variable {p q r : PathName}

theorem join_of_isAbsolute (h : q.isAbsolute = true) : p.join q = q := if_pos h

theorem join_of_relative (h : q.isAbsolute = false) : p.join q = ⟨p.root, p.names ++ q.names⟩ :=
  if_neg (h ▸ Bool.false_ne_true)

theorem root_of_relative (h : p.isAbsolute = false) : p.root = .none := by
  simpa [isAbsolute] using h

/-- Nothing is seen differently from the directory that the empty text spells. -/
theorem ofText_nil_join : (ofText []).join p = p := by
  cases h : p.isAbsolute with
  | true => exact join_of_isAbsolute h
  | false =>
    rw [join_of_relative h]
    exact congrArg (PathName.mk · p.names) (root_of_relative h).symm

/-- Joining two paths and then a third is joining the first to the others. -/
theorem join_assoc : (p.join q).join r = p.join (q.join r) := by
  cases hr : r.isAbsolute with
  | true => rw [join_of_isAbsolute hr, join_of_isAbsolute hr, join_of_isAbsolute hr]
  | false =>
    cases hq : q.isAbsolute with
    | true =>
      have hqr : (q.join r).isAbsolute = true := by
        rw [join_of_relative hr]
        exact hq
      rw [join_of_isAbsolute hq, join_of_isAbsolute hqr]
    | false =>
      have hqr : (q.join r).isAbsolute = false := by
        rw [join_of_relative hr]
        exact hq
      rw [join_of_relative hr, join_of_relative hq, join_of_relative hqr, join_of_relative hr, List.append_assoc]

end PathName

namespace Config

open PathName (Spells IsNormal ofText)

variable {base : Value} {t path a b : Text} {p q : PathName}

/-- The text of a base directory; without one paths are as in the directory that the empty text spells. -/
def baseText? : Value → Option Text
  | .null => some []
  | .text t => some t
  | .textMember m _ => some m.label
  | _ => none

theorem resolveIn_of_isAbsolute (h : (ofText path).isAbsolute = true) (base : Value) :
    resolveIn base path = .ok (ofText path) := if_pos h

theorem resolveIn_of_baseText? (h : baseText? base = some t) (path : Text) :
    resolveIn base path = .ok ((ofText t).join (ofText path)) := by
  cases hp : (ofText path).isAbsolute with
  | true => rw [resolveIn_of_isAbsolute hp, PathName.join_of_isAbsolute hp]
  | false =>
    simp only [resolveIn, hp, Bool.false_eq_true, if_false]
    cases base with
    | null =>
      cases h
      exact congrArg Except.ok PathName.ofText_nil_join.symm
    | text | textMember =>
      cases h
      rfl
    | _ => cases h

/-- What a path is resolved to: itself if it is absolute, and else as seen from the base directory. -/
theorem resolveIn_eq_ok_iff :
    resolveIn base path = .ok p ↔
      (ofText path).isAbsolute = true ∧ p = ofText path ∨
        ∃ t, baseText? base = some t ∧ p = (ofText t).join (ofText path) := by
  -- An absolute path is taken before the base is looked at, whatever that is.
  cases hp : (ofText path).isAbsolute with
  | true =>
    have hjoin (t : Text) : (ofText t).join (ofText path) = ofText path := PathName.join_of_isAbsolute hp
    rw [resolveIn_of_isAbsolute hp, Except.ok.injEq]
    simp only [hjoin, true_and]
    exact ⟨fun h => .inl h.symm, fun h => (h.elim id fun ⟨_, _, h⟩ => h).symm⟩
  | false =>
    cases hbase : baseText? base with
    | some t =>
      rw [resolveIn_of_baseText? hbase, Except.ok.injEq]
      simp [eq_comm]
    | none =>
      refine iff_of_false (fun h => ?_) (by simp)
      simp only [resolveIn, hp, Bool.false_eq_true, if_false] at h
      cases base with
      | null | text | textMember => cases hbase
      | _ => cases h

theorem isNormal_of_resolveIn (h : resolveIn base path = .ok p) : p.IsNormal := by
  obtain ⟨_, rfl⟩ | ⟨t, _, rfl⟩ := resolveIn_eq_ok_iff.mp h
  · exact PathName.isNormal_ofText path
  · exact (PathName.isNormal_ofText t).join (PathName.isNormal_ofText path)

/-- A relative text is resolved by resolving it up to a slash and the rest from there. -/
theorem resolveIn_append (hne : a ≠ []) (ha : (ofText a).isAbsolute = false) (hb : (ofText b).isAbsolute = false)
    (h : resolveIn base a = .ok p) :
    resolveIn base (a ++ 0x2F :: b) = resolveIn (.text p.text) b := by
  have hnormal := isNormal_of_resolveIn h
  obtain ⟨habsolute, _⟩ | ⟨t, ht, rfl⟩ := resolveIn_eq_ok_iff.mp h
  · exact absurd habsolute (ha ▸ Bool.false_ne_true)
  · rw [resolveIn_of_baseText? ht, resolveIn_of_baseText? rfl, hnormal.ofText_text,
      PathName.ofText_append hne ha hb, PathName.join_assoc]

/-- Every text spells one path. A text path is resolved to the path that it spells if it starts with a slash or if
there is no base directory; from a text as base directory, it is resolved to the root and names of that directory
and its own names behind them. The text of the result spells the result and is normal. A relative text is resolved
by resolving what is before a slash and, with that as base directory, what is behind it. -/
theorem resolve_spelled (c : Config) (h : c.baseDir = .null ∨ ∃ t, c.baseDir = .text t) (path : Text) :
    (∀ t, ∃! p, Spells t p) ∧
      ∃ p result, Spells path p ∧ c.resolve path = .ok result ∧
        (path.head? = some 0x2F → result = p) ∧
        (c.baseDir = .null → result = p) ∧
        (path.head? ≠ some 0x2F → ∀ t q, c.baseDir = .text t → Spells t q →
          result = ⟨q.root, q.names ++ p.names⟩) ∧
        Spells result.text result ∧ PathName.normalText result.text = result.text ∧
        (path ≠ [] → path.head? ≠ some 0x2F → ∀ b : Text, b.head? ≠ some 0x2F →
          c.resolve (path ++ 0x2F :: b) = resolve { c with baseDir := .text result.text } b) := by
  have hunique (t : Text) : ∃! p, Spells t p :=
    ⟨ofText t, PathName.spells_iff.mpr rfl, fun _ hp => PathName.spells_iff.mp hp⟩
  have hrelative {t : Text} (ht : t.head? ≠ some 0x2F) : (ofText t).isAbsolute = false :=
    Bool.eq_false_iff.mpr (mt (PathName.head?_eq_iff t).mpr ht)
  -- No base directory counts as the empty text, so there is a base in both cases.
  obtain ⟨t, ht⟩ : ∃ t, baseText? c.baseDir = some t := by
    obtain hnull | ⟨t, htext⟩ := h
    · exact ⟨[], hnull ▸ rfl⟩
    · exact ⟨t, htext ▸ rfl⟩
  have hresult := resolveIn_of_baseText? ht path
  have hnormal := isNormal_of_resolveIn hresult
  refine ⟨hunique, ofText path, _, PathName.spells_iff.mpr rfl, hresult, fun hslash => ?absolute,
    fun hnull => ?unbased, fun hpath base q hbase hq => ?based, hnormal.spells_text,
    congrArg PathName.text hnormal.ofText_text, fun hne hpath b hb => ?cut⟩
  case absolute => exact PathName.join_of_isAbsolute ((PathName.head?_eq_iff path).mp hslash)
  case unbased =>
    rw [hnull] at ht
    cases ht
    exact PathName.ofText_nil_join
  case based =>
    rw [hbase] at ht
    cases ht
    cases PathName.spells_iff.mp hq
    exact PathName.join_of_relative (hrelative hpath)
  case cut => exact resolveIn_append hne (hrelative hpath) (hrelative hb) hresult

/-- A path with points and slashes to spare under a directory. -/
theorem resolve_spelled_blocks :
    resolve { standard with baseDir := .text "/data/" } "./blocks//../1.dat" =
      .ok ⟨.slash, ["data", "blocks", "..", "1.dat"]⟩ := by
  obtain ⟨_, p, result, hpath, hresult, _, _, hrelative, _⟩ :=
    resolve_spelled { standard with baseDir := .text "/data/" } (.inr ⟨_, rfl⟩) "./blocks//../1.dat"
  have hbase : Spells "/data/" ⟨.slash, ["data"]⟩ := PathName.spells_iff.mpr (by decide)
  rw [hresult, hrelative (by decide) _ _ rfl hbase, PathName.spells_iff.mp hpath]
  refine congrArg Except.ok ?_
  decide

end Config

end CanonStore
