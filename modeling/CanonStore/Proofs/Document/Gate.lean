import CanonStore.Proofs.Canonical.Failure
import CanonStore.Proofs.Document.Path
import CanonStore.Proofs.Value.Visits

/-!
# The gate and the canonical form

The gate finds the first part that offends on the walk through a value, with its place (`firstForeignAt_eq`). The
canonical form is built on the same walk, and stops at the first part that has none: a float that is not finite,
a key that is no text, or a value of a type that cannot be converted (`Follows`). So where the gate finds such a
key or value, and no such float stands before it, the canonical form fails at the same place. A key that is no
text and cannot be shown either ends in a fault that is no report and names no place. Main statement:
`firstForeign_eq_first_offender`.
-/

namespace CanonStore

namespace Value

/-! ## What the gate finds -/

/-- The place and type name of the first part that offends. -/
def firstOffender (xs : List Visit) : Option (Location × Text) :=
  (xs.find? fun x => x.part.offends).map fun x => (x.place, x.part.typeName)

/-- The first offender of two walks is that of the first walk, if it has one. -/
theorem firstOffender_append (xs ys : List Visit) :
    firstOffender (xs ++ ys) = (firstOffender xs).or (firstOffender ys) := by
  rw [firstOffender, List.find?_append, Option.map_or]
  rfl

theorem firstOffender_cons_of_not {x : Visit} (h : x.part.offends = false) (xs : List Visit) :
    firstOffender (x :: xs) = firstOffender xs := by
  rw [firstOffender, List.find?_cons_of_neg (h ▸ Bool.false_ne_true)]
  rfl

theorem firstOffender_cons_of_offends {x : Visit} (h : x.part.offends = true) (xs : List Visit) :
    firstOffender (x :: xs) = some (x.place, x.part.typeName) := by
  rw [firstOffender, List.find?_cons_of_pos (p := fun x : Visit => x.part.offends) h]
  rfl

/-- The gate finds in the value the first part that offends, wherever turns lead to the value. -/
def Gated (depth : Nat) (v : Value) : Prop :=
  ∀ trail, (∀ x ∈ visitsAt trail v, ¬ x.part.IsEndless) →
    firstForeignAt depth (Visit.placeOf trail) v = .ok (firstOffender (visitsAt trail v))

variable {depth : Nat}

/-- The gate goes through items as a walk does. -/
theorem firstForeignItem_eq {items : List Value} (h : ∀ v ∈ items, Gated depth v) (trail : List Turn) (index : Nat)
    (hend : ∀ x ∈ visitsOfItems trail index items, ¬ x.part.IsEndless) :
    firstForeignItem depth (Visit.placeOf trail) index items =
      .ok (firstOffender (visitsOfItems trail index items)) := by
  induction items generalizing index with
  | nil => rfl
  | cons v rest ih =>
    obtain ⟨hv, hrest⟩ := List.forall_mem_cons.mp h
    obtain ⟨hendv, hendrest⟩ := List.forall_mem_append.mp hend
    have hfirst : firstForeignAt depth ((Visit.placeOf trail).item index) v = _ :=
      Visit.placeOf_concat trail (.item index) ▸ hv (trail ++ [Turn.item index]) hendv
    rw [firstForeignItem, visitsOfItems, firstOffender_append, hfirst]
    cases firstOffender (visitsAt (trail ++ [.item index]) v) with
    | none => exact ih hrest (index + 1) hendrest
    | some found => rfl

/-- A key offends unless it is a text. -/
theorem offends_key_eq_false_iff {k : Value} : (Part.key k).offends = false ↔ ∃ l, Label.ofValue? k = some l := by
  constructor
  · intro h
    exact exists_ofValue? (by simpa [Part.offends] using h)
  · rintro ⟨l, hl⟩
    rw [Part.offends, text?_isSome_of_ofValue? hl, Bool.not_true]

/-- The gate goes through entries as a walk does, each key before its value. -/
theorem firstForeignEntry_eq {entries : List (Value × Value)} (h : ∀ e ∈ entries, Gated depth e.2)
    (trail : List Turn) (hend : ∀ x ∈ visitsOfEntries trail entries, ¬ x.part.IsEndless) :
    firstForeignEntry depth (Visit.placeOf trail) entries =
      .ok (firstOffender (visitsOfEntries trail entries)) := by
  induction entries with
  | nil => rfl
  | cons e rest ih =>
    obtain ⟨he, hrest⟩ := List.forall_mem_cons.mp h
    obtain ⟨hende, hendrest⟩ := List.forall_mem_append.mp (List.forall_mem_cons.mp hend).2
    rw [firstForeignEntry, visitsOfEntries]
    -- A key comes before its value, and a key that offends ends the walk.
    cases hoffends : (Part.key e.1).offends with
    | true =>
      have hkey : Label.ofValue? e.1 = none := by
        cases hlabel : Label.ofValue? e.1 with
        | none => rfl
        | some l => cases hoffends.symm.trans (offends_key_eq_false_iff.mpr ⟨l, hlabel⟩)
      rw [hkey, firstOffender_cons_of_offends hoffends]
      rfl
    | false =>
      obtain ⟨l, hl⟩ := offends_key_eq_false_iff.mp hoffends
      have hfirst : firstForeignAt depth ((Visit.placeOf trail).key l) e.2 = _ :=
        Visit.placeOf_key trail hl ▸ he (trail ++ [Turn.key e.1]) hende
      rw [firstOffender_cons_of_not hoffends, firstOffender_append, hl]
      dsimp only
      rw [hfirst]
      cases firstOffender (visitsAt (trail ++ [.key e.1]) e.2) with
      | none => exact ih hrest hendrest
      | some found => rfl

/-- The gate finds the first part that offends in every finite value that is not nested too deeply. -/
theorem gated {v : Value} (hn : v.nesting ≤ depth) : Gated depth v := by
  intro trail hend
  induction v generalizing depth trail with
  | endless => exact absurd trivial (hend _ List.mem_cons_self)
  | list items ih =>
    obtain ⟨hd, hitems⟩ := (nesting_list_le_iff _ _).mp hn
    rw [visitsAt, firstOffender_cons_of_not rfl, firstForeignAt, if_neg hd.ne']
    exact firstForeignItem_eq (fun v hv trail => ih v hv (hitems v hv) trail) trail 0
      (List.forall_mem_cons.mp hend).2
  | dict entries ih =>
    obtain ⟨hd, hentries⟩ := (nesting_dict_le_iff _ _).mp hn
    rw [visitsAt, firstOffender_cons_of_not rfl, firstForeignAt, if_neg hd.ne']
    exact firstForeignEntry_eq (fun e he trail => (ih e he).2 (hentries e he).2 trail) trail
      (List.forall_mem_cons.mp hend).2
  | _ => rfl

end Value

/-! ## Where the canonical form stops -/

namespace Visit

/-- The fault of a part that has no canonical form of its own, at the place where it is met. -/
def fault? (x : Visit) : Option CanonicalFault :=
  match x.part with
  | .value v =>
    match v with
    | .float y => if y.isFinite then none else some (.nonFinite x.place y)
    | .date _ | .entry _ _ | .foreign _ => some (.unsupported x.place v.typeName)
    | _ => none
  | .key k =>
    match Canonical.keyLabel x.place k with
    | .error fault => some fault
    | .ok _ => none

/-- The part offends, or it is a float that is not finite. -/
def stops (x : Visit) : Bool := x.part.offends || x.part.isNonFinite

end Visit

namespace Canonical

variable {α β : Type} {depth : Nat}

/-- A conversion goes as a walk tells: it succeeds if nothing stops the walk, and else it fails with the fault of
the first part that stops it, if that part has one. -/
def Follows (xs : List Visit) (r : Except CanonicalFault α) : Prop :=
  match xs.find? Visit.stops with
  | none => ∃ a, r = .ok a
  | some x => ∀ fault, x.fault? = some fault → r = .error fault

theorem follows_ok (a : α) : Follows [] (.ok a : Except CanonicalFault α) := ⟨a, rfl⟩

theorem follows_cons_iff {x : Visit} (h : x.stops = false) {xs : List Visit} {r : Except CanonicalFault α} :
    Follows (x :: xs) r ↔ Follows xs r := by
  rw [Follows, List.find?_cons_of_neg (h ▸ Bool.false_ne_true)]
  rfl

/-- A conversion after another one follows the one walk after the other. -/
theorem Follows.bind {xs ys : List Visit} {r : Except CanonicalFault α} {f : α → Except CanonicalFault β}
    (hr : Follows xs r) (hf : ∀ a, r = .ok a → Follows ys (f a)) : Follows (xs ++ ys) (r >>= f) := by
  unfold Follows at hr ⊢
  rw [List.find?_append]
  cases hx : xs.find? Visit.stops with
  | none =>
    rw [hx] at hr
    obtain ⟨a, rfl⟩ := hr
    exact hf a rfl
  | some x =>
    rw [hx] at hr
    intro fault hfault
    rw [hr fault hfault]
    rfl

theorem Follows.map {xs : List Visit} {r : Except CanonicalFault α} (hr : Follows xs r) (f : α → β) :
    Follows xs (r.map f) := by
  have hbind : Follows (xs ++ []) (r >>= fun a => .ok (f a)) := hr.bind fun a _ => follows_ok (f a)
  rw [List.append_nil] at hbind
  cases r with
  | ok | error => exact hbind

/-- The label of a key follows the visit to the key. -/
theorem follows_keyLabel (trail : List Turn) (k : Value) :
    Follows [⟨trail, .key k⟩] (keyLabel (Visit.placeOf trail) k) := by
  -- A key that has a label is passed by; any other one fails as a visit of it does.
  cases hoffends : (Part.key k).offends with
  | true =>
    rw [Follows, List.find?_cons_of_pos (by simp [Visit.stops, hoffends])]
    intro fault hfault
    simp only [Visit.fault?, Visit.place] at hfault
    cases hlabel : keyLabel (Visit.placeOf trail) k with
    | ok l =>
      rw [hlabel] at hfault
      cases hfault
    | error other =>
      rw [hlabel] at hfault
      cases hfault
      rfl
  | false =>
    obtain ⟨l, hl⟩ := Value.offends_key_eq_false_iff.mp hoffends
    rw [follows_cons_iff (by simp [Visit.stops, hoffends, Part.isNonFinite])]
    exact ⟨l, by rw [keyLabel, hl]⟩

/-- The conversion of the value follows the walk through it, wherever turns lead to the value. -/
def Walked (depth : Nat) (v : Value) : Prop :=
  ∀ trail, (∀ x ∈ v.visitsAt trail, ¬ x.part.IsEndless) →
    Follows (v.visitsAt trail) (ofValueAt depth (Visit.placeOf trail) v)

theorem follows_ofItems {items : List Value} (h : ∀ v ∈ items, Walked depth v) (trail : List Turn) (index : Nat)
    (hend : ∀ x ∈ Value.visitsOfItems trail index items, ¬ x.part.IsEndless) :
    Follows (Value.visitsOfItems trail index items) (ofItems depth (Visit.placeOf trail) index items) := by
  induction items generalizing index with
  | nil => exact follows_ok []
  | cons v rest ih =>
    obtain ⟨hv, hrest⟩ := List.forall_mem_cons.mp h
    obtain ⟨hendv, hendrest⟩ := List.forall_mem_append.mp hend
    have hfirst : Follows _ (ofValueAt depth ((Visit.placeOf trail).item index) v) :=
      Visit.placeOf_concat trail (.item index) ▸ hv (trail ++ [Turn.item index]) hendv
    exact hfirst.bind fun c _ => (ih hrest (index + 1) hendrest).map fun cs => c :: cs

theorem follows_ofEntries {entries : List (Value × Value)} (h : ∀ e ∈ entries, Walked depth e.2)
    (trail : List Turn) (hend : ∀ x ∈ Value.visitsOfEntries trail entries, ¬ x.part.IsEndless) :
    Follows (Value.visitsOfEntries trail entries) (ofEntries depth (Visit.placeOf trail) entries) := by
  induction entries with
  | nil => exact follows_ok []
  | cons e rest ih =>
    obtain ⟨he, hrest⟩ := List.forall_mem_cons.mp h
    obtain ⟨hende, hendrest⟩ := List.forall_mem_append.mp (List.forall_mem_cons.mp hend).2
    refine (follows_keyLabel trail e.1).bind fun l hl => ?_
    have hfirst : Follows _ (ofValueAt depth ((Visit.placeOf trail).key l) e.2) :=
      Visit.placeOf_key trail (keyLabel_eq_ok_iff.mp hl) ▸ he (trail ++ [Turn.key e.1]) hende
    exact hfirst.bind fun c _ => (ih hrest hendrest).map fun ms => (l, c) :: ms

/-- The canonical form of every finite value that is not nested too deeply follows the walk through it. -/
theorem walked {v : Value} (hn : v.nesting ≤ depth) : Walked depth v := by
  intro trail hend
  induction v generalizing depth trail with
  | endless => exact absurd trivial (hend _ List.mem_cons_self)
  | null => exact ⟨.null, rfl⟩
  | bool b => exact ⟨.bool b, rfl⟩
  | int n => exact ⟨.int n, rfl⟩
  | text t => exact ⟨.text (.plain t), rfl⟩
  | float y =>
    show Follows [⟨trail, .value (.float y)⟩] (ofFloat (Visit.placeOf trail) y)
    cases hy : y.isFinite with
    | true =>
      rw [follows_cons_iff (by simp [Visit.stops, Part.offends, Part.isNonFinite, hy])]
      exact ⟨.float y, if_pos hy⟩
    | false =>
      rw [Follows, List.find?_cons_of_pos (by simp [Visit.stops, Part.isNonFinite, hy])]
      intro fault hfault
      simp only [Visit.fault?, hy, Bool.false_eq_true, if_false, Option.some.injEq] at hfault
      subst hfault
      exact if_neg (hy ▸ Bool.false_ne_true)
  | date | entry | foreign =>
    intro fault hfault
    cases hfault
    rfl
  | list items ih =>
    obtain ⟨hd, hitems⟩ := (Value.nesting_list_le_iff _ _).mp hn
    rw [Value.visitsAt, follows_cons_iff rfl, ofValueAt, if_neg hd.ne']
    exact (follows_ofItems (fun v hv trail => ih v hv (hitems v hv) trail) trail 0
      (List.forall_mem_cons.mp hend).2).map _
  | dict entries ih =>
    obtain ⟨hd, hentries⟩ := (Value.nesting_dict_le_iff _ _).mp hn
    rw [Value.visitsAt, follows_cons_iff rfl, ofValueAt, if_neg hd.ne']
    exact (follows_ofEntries (fun e he trail => (ih e he).2 (hentries e he).2 trail) trail
      (List.forall_mem_cons.mp hend).2).map _
  -- The other parts offend, but the canonical form converts them: there is no fault of their own.
  | _ =>
    intro fault hfault
    cases hfault

end Canonical

/-! ## The first part that offends -/

namespace Part

/-- The canonical form knows no such part: a value of a type that cannot be converted, or a key that is no text. -/
def IsUnsupported : Part → Prop
  | .value (.date _) | .value (.entry _ _) | .value (.foreign _) => True
  | .key k => k.text? = none
  | _ => False

/-- The report on the part can be written: a key has to be shown in it. -/
def CanBeShown : Part → Prop
  | .key k => k.display?.isSome
  | .value _ => True

end Part

theorem Canonical.keyLabel_of_display (place : Location) {k : Value} (h : k.text? = none) :
    ∃ fault, keyLabel place k = .error fault ∧ (fault.isReport ↔ k.display?.isSome) ∧
      (k.display?.isSome → fault.toFault.detail? "path" = some place.toValue) := by
  have hlabel : Label.ofValue? k = none := by
    cases k with
    | text | textMember => cases h
    | _ => rfl
  rw [keyLabel, hlabel, Value.display?]
  cases k.display with
  | ok shown => exact ⟨_, rfl, iff_of_true rfl rfl, fun _ => rfl⟩
  | error fault =>
    cases fault with
    | oversized | tooDeep =>
      exact ⟨_, rfl, iff_of_false Bool.false_ne_true Bool.false_ne_true, fun h => absurd h Bool.false_ne_true⟩

/-- A part that the canonical form does not know has a fault, which is reported at its place if it can be shown. -/
theorem Visit.exists_fault? {x : Visit} (h : x.part.IsUnsupported) :
    ∃ fault, x.fault? = some fault ∧ (fault.isReport ↔ x.part.CanBeShown) ∧
      (x.part.CanBeShown → fault.toFault.detail? "path" = some x.place.toValue) := by
  obtain ⟨trail, part⟩ := x
  cases part with
  | key k =>
    obtain ⟨fault, hlabel, hreport⟩ := Canonical.keyLabel_of_display (Visit.placeOf trail) h
    exact ⟨fault, by simp only [Visit.fault?, Visit.place, hlabel], hreport⟩
  | value v =>
    cases v with
    | date | entry | foreign => exact ⟨_, rfl, iff_of_true rfl trivial, fun _ => rfl⟩
    | _ => exact h.elim

namespace Value

variable {v : Value}

/-- The gate names the first offender of the walk. -/
theorem firstForeign_eq (hend : ∀ x ∈ v.visits, ¬ x.part.IsEndless) (hn : v.nesting ≤ Canonical.maxDepth) :
    v.firstForeign = .ok (firstOffender v.visits) :=
  gated hn [] hend

/-- A value without an offender is plain. -/
theorem firstOffender_eq_none_iff (hend : ∀ x ∈ v.visits, ¬ x.part.IsEndless) :
    firstOffender v.visits = none ↔ v.Plain := by
  rw [firstOffender, Option.map_eq_none_iff, List.find?_eq_none, plain_iff_visits hend]
  simp only [Bool.not_eq_true]

/-- The gate lets a finite value through exactly if it is plain: nothing, truth values, integers, floats, texts,
lists, and dictionaries whose keys are texts, at every depth. Otherwise it tells the place and the type name of
the first part, in reading order, that is none of these. If the canonical form does not know this part, and no
float that is not finite stands before it, the canonical form fails: with a report at the same place exactly if
the report can be written. -/
theorem firstForeign_eq_first_offender (hend : ∀ x ∈ v.visits, ¬ x.part.IsEndless) (hn : v.nesting ≤ 200) :
    (v.firstForeign = .ok none ↔ v.Plain) ∧
      (¬ v.Plain → ∃ before x after, v.visits = before ++ x :: after ∧
        (∀ y ∈ before, y.part.offends = false) ∧ x.part.offends = true ∧
        v.firstForeign = .ok (some (x.place, x.part.typeName)) ∧
        ((∀ k, Turn.key k ∈ x.trail → ∃ t, k = .text t) → x.place.text = Turn.pathText x.trail) ∧
        (x.part.IsUnsupported → (∀ y ∈ before, y.part.isNonFinite = false) →
          ∃ fault, Canonical.ofValue .root v = .error fault ∧
            (fault.toFault.IsReport .canonicalization ↔ x.part.CanBeShown) ∧
            (x.part.CanBeShown → fault.toFault.detail? "path" = some x.place.toValue))) := by
  have hdepth : v.nesting ≤ Canonical.maxDepth := hn.trans (by decide)
  have hgate := firstForeign_eq hend hdepth
  have hnone := firstOffender_eq_none_iff hend
  refine ⟨?passes, fun hplain => ?refused⟩
  case passes => rw [hgate, Except.ok.injEq, hnone]
  case refused =>
    obtain ⟨x, hx⟩ : ∃ x, v.visits.find? (fun x => x.part.offends) = some x := by
      rwa [← hnone, firstOffender, Option.map_eq_none_iff, ← ne_eq, Option.ne_none_iff_exists'] at hplain
    obtain ⟨hoffends, before, after, hvisits, hbefore⟩ := List.find?_eq_some_iff_append.mp hx
    have hclean : ∀ y ∈ before, y.part.offends = false := fun y hy => by simpa using hbefore y hy
    refine ⟨before, x, after, hvisits, hclean, hoffends, ?found, fun hkeys => ?text, fun hunsupported hfinite => ?_⟩
    case found => rw [hgate, firstOffender, hx, Option.map_some]
    case text => rw [Visit.place, Visit.placeOf_eq hkeys, Label.text]
    -- Neither a part that offends nor a float stops the canonical form before.
    have hstops : v.visits.find? Visit.stops = some x := by
      refine List.find?_eq_some_iff_append.mpr ⟨by rw [Visit.stops, hoffends, Bool.true_or], before, after, hvisits,
        fun y hy => ?_⟩
      rw [Visit.stops, hclean y hy, hfinite y hy]
      rfl
    obtain ⟨fault, hfault, hreport, hpath⟩ := Visit.exists_fault? hunsupported
    have hfollows := Canonical.walked hdepth [] hend
    unfold Canonical.Follows at hfollows
    rw [show v.visitsAt [] = v.visits from rfl, hstops] at hfollows
    exact ⟨fault, hfollows fault hfault, (CanonicalFault.isReport_toFault_iff fault).trans hreport, hpath⟩

/-- A set inside a list under a key. -/
theorem firstForeign_eq_first_offender_set :
    firstForeign (.dict [(.text "a", .list [.int 1, .foreign .set])]) = .ok (some (.plain "a[1]", "set")) ∧
      ∃ fault, Canonical.ofValue .root (.dict [(.text "a", .list [.int 1, .foreign .set])]) = .error fault ∧
        fault.toFault.detail? "path" = some (.text "a[1]") := by
  have hend : ∀ x ∈ visits (.dict [(.text "a", .list [.int 1, .foreign .set])]), ¬ x.part.IsEndless := by
    simp [visits, visitsAt, visitsOfEntries, visitsOfItems, Part.IsEndless]
  obtain ⟨_, hrefused⟩ := firstForeign_eq_first_offender hend (by decide)
  obtain ⟨before, x, after, hvisits, hbefore, hoffends, hfound, _, hfails⟩ := hrefused (fun h => h.1.2.2.1)
  have hx : (visits (.dict [(.text "a", .list [.int 1, .foreign .set])])).find? (fun x => x.part.offends) = some x :=
    List.find?_eq_some_iff_append.mpr ⟨hoffends, before, after, hvisits, fun y hy => by rw [hbefore y hy]; rfl⟩
  cases hx
  have hplace : Visit.placeOf [.key (.text "a"), .item 1] = .plain "a[1]" := by decide +kernel
  have hfinite : ∀ y ∈ before, y.part.isNonFinite = false := fun y hy =>
    (by decide : ∀ y ∈ visits (.dict [(.text "a", .list [.int 1, .foreign .set])]), y.part.isNonFinite = false) y
      (hvisits ▸ List.mem_append_left _ hy)
  obtain ⟨fault, hfault, _, hpath⟩ := hfails trivial hfinite
  refine ⟨hfound.trans ?_, fault, hfault, (hpath trivial).trans ?_⟩
  · exact congrArg (fun place => Except.ok (some (place, Text.ofString "set"))) hplace
  · exact congrArg (fun place => some (Label.toValue place)) hplace

/-- An integer of too many digits as a key is found at the place of its dictionary, but it cannot be shown: the
canonical form fails with a fault that names no place. -/
theorem firstForeign_oversizedKey_without_path :
    let v : Value := .dict [(.int (10 ^ Json.maxDigits : Nat), .int 1)]
    (∀ x ∈ v.visits, ¬ x.part.IsEndless) ∧ v.nesting ≤ 200 ∧ (∀ x ∈ v.visits, x.part.isNonFinite = false) ∧
      v.firstForeign = .ok (some (Location.root, "int key")) ∧
      ¬ ∃ fault, Canonical.ofValue .root v = .error fault ∧
        fault.toFault.detail? "path" = some (Label.toValue Location.root) := by
  have hsize := Json.isOversized_pow
  generalize ((10 ^ Json.maxDigits : Nat) : Int) = n at hsize
  -- The key has no label, and it is too long to be shown in the report either.
  have hlabel : Canonical.keyLabel .root (.int n) = .error .unshownKey := by
    simp only [Canonical.keyLabel, Label.ofValue?, display, displayAt, intText, hsize, if_true]
  refine ⟨?_, Nat.le_of_ble_eq_true rfl, ?_, rfl, ?_⟩
  · simp [visits, visitsAt, visitsOfEntries, Part.IsEndless]
  · simp [visits, visitsAt, visitsOfEntries, Part.isNonFinite]
  · rintro ⟨fault, hfault, hpath⟩
    have hunshown : fault = .unshownKey := by
      rw [Canonical.ofValue, Canonical.ofValueAt, if_neg (by decide), Canonical.ofEntries, hlabel] at hfault
      exact (Except.error.inj hfault).symm
    cases hunshown
    cases hpath

end Value

end CanonStore
