import CanonStore.Proofs.Config.Sections

/-!
# Configurations that can be copied

A value like those of documents can be copied exactly if it is not nested more deeply than the bound on copies
(`copyFaultAt_eq_none_iff`), and a configuration if none of its parts is (`copyFault?_eq_none_iff`).
-/

namespace CanonStore

/-! ## Values -/

namespace Value

theorem copyFaultItems_eq_none_iff (depth : Nat) (items : List Value) :
    copyFaultItems depth items = none ↔ ∀ v ∈ items, v.copyFaultAt depth = none := by
  refine iff_forall_mem_of_cons (P := fun items => copyFaultItems depth items = none) rfl
    (fun v rest => ?_) items
  rw [copyFaultItems]
  cases v.copyFaultAt depth <;> simp

theorem copyFaultEntries_eq_none_iff (depth : Nat) (entries : List (Value × Value)) :
    copyFaultEntries depth entries = none ↔
      ∀ e ∈ entries, e.1.copyFaultAt depth = none ∧ e.2.copyFaultAt depth = none := by
  refine iff_forall_mem_of_cons (P := fun entries => copyFaultEntries depth entries = none) rfl
    (fun e rest => ?_) entries
  rw [copyFaultEntries]
  cases e.1.copyFaultAt depth with
  | some fault => simp
  | none => cases e.2.copyFaultAt depth <;> simp

theorem copyFaultAt_of_text? {k : Value} (h : k.text?.isSome) (depth : Nat) : k.copyFaultAt depth = none := by
  cases k with
  | text | textMember => rfl
  | _ => cases h

theorem opened_eq_none_iff (depth : Nat) (inner : Option CopyFault) :
    (if depth = 0 then some CopyFault.tooDeep else inner) = none ↔ 0 < depth ∧ inner = none := by
  rw [Nat.pos_iff_ne_zero]
  by_cases hzero : depth = 0 <;> simp [hzero]

/-- A value like those of documents can be copied exactly if it is not nested too deeply. -/
theorem copyFaultAt_eq_none_iff {v : Value} (hv : v.Plain) (depth : Nat) :
    v.copyFaultAt depth = none ↔ v.nesting ≤ depth := by
  induction v generalizing depth with
  | null | bool | int | float | text => exact iff_of_true rfl (Nat.zero_le _)
  | list items ih =>
    rw [plain_list_iff] at hv
    rw [nesting_list_le_iff, Value.copyFaultAt, opened_eq_none_iff, copyFaultItems_eq_none_iff]
    exact and_congr_right fun _ => forall₂_congr fun v hmem => ih v hmem (hv v hmem) (depth - 1)
  | dict entries ih =>
    rw [plain_dict_iff] at hv
    rw [nesting_dict_le_iff, Value.copyFaultAt, opened_eq_none_iff, copyFaultEntries_eq_none_iff]
    refine and_congr_right fun _ => forall₂_congr fun e he => ?_
    obtain ⟨hkey, hvalue⟩ := hv e he
    rw [(ih e he).2 hvalue (depth - 1), eq_true (copyFaultAt_of_text? hkey (depth - 1)),
      eq_true (nesting_le_of_text? hkey)]
  | _ => cases hv

end Value

/-! ## Configurations -/

namespace Config

open Value (copyFaultAt_eq_none_iff)

theorem copyFault?_eq_none_iff_parts (c : Config) :
    c.copyFault? = none ↔ c.logFile.copyFault? = none ∧ c.baseDir.copyFault? = none ∧
      c.debug.copyFault? = none ∧ c.extra.copyFault? = none := by
  unfold copyFault?
  cases c.logFile.copyFault? with
  | some fault => simp
  | none =>
    cases c.baseDir.copyFault? with
    | some fault => simp
    | none => cases c.debug.copyFault? <;> simp

/-- A configuration that a plain dictionary describes can be copied exactly if no part of it is nested too
deeply. -/
theorem copyFault?_eq_none_iff {entries : List (Value × Value)} {c : Config}
    (hplain : (Value.dict entries).Plain) (hc : ofValue (.dict entries) = .ok c) :
    c.copyFault? = none ↔
      ∀ v ∈ [c.logFile, c.baseDir, c.extra], v.nesting ≤ Value.maxCopyDepth := by
  obtain ⟨hfile, hbase, hextra⟩ := inherited_plain.settings hplain hc
  have hdebug : c.debug.copyFaultAt Value.maxCopyDepth = none := by
    obtain ⟨_, _, _, _, hdebug, _⟩ := ofValue_eq_ok_iff.mp hc
    rw [hdebug]
    rfl
  rw [copyFault?_eq_none_iff_parts]
  unfold Value.copyFault?
  rw [copyFaultAt_eq_none_iff hfile, copyFaultAt_eq_none_iff hbase, copyFaultAt_eq_none_iff hextra, hdebug]
  simp

end Config

end CanonStore
