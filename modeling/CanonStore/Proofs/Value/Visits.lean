import CanonStore.Proofs.Value.Storable

/-!
# Walks through a value

`Value.visits` is the walk through a value in reading order: each list and each dictionary before its parts, and
each key before its value. A part `offends` if it is no plain JSON value of its own, whatever it holds, and a
value is plain exactly if nothing offends on its walk (`plain_iff_visits`). The turns that lead to a part are its
place; keys that are texts give a place a text of a simple form (`Visit.placeOf_eq`): keys without text in front are
left out, the first key stands for itself, and behind it keys follow points and indexes stand in brackets.
-/

namespace CanonStore

/-- A turn from a container to one of its parts. -/
inductive Turn where
  | key (k : Value)
  | item (index : Nat)

namespace Turn

/-- The place that a turn leads to. A key that is no text has none. -/
def place (whole : Location) : Turn → Location
  | .key k =>
    match Label.ofValue? k with
    | some l => whole.key l
    | none => whole
  | .item index => whole.item index

/-- The text of a turn behind others. -/
def text : Turn → Text
  | .key k => "." ++ k.text?.getD []
  | .item index => "[" ++ Numeral.ofNat index ++ "]"

/-- The text of turns one after the other: the first key stands for itself, if it has a text. -/
def pathText : List Turn → Text
  | [] => []
  | .key k :: rest => match k.text?.getD [] with
    | [] => pathText rest
    | c :: cs => c :: cs ++ rest.flatMap text
  | .item index :: rest => (Turn.item index).text ++ rest.flatMap text

end Turn

/-- What is met on a walk: a value, or a key of a dictionary. -/
inductive Part where
  | value (v : Value)
  | key (k : Value)

namespace Part

/-- The part is no JSON value of exactly the type, and no list or dictionary either; or it is a key that is no
text. -/
def offends : Part → Bool
  | .value v =>
    match v with
    | .null | .bool _ | .int _ | .float _ | .text _ | .list _ | .dict _ | .endless _ => false
    | _ => true
  | .key k => !k.text?.isSome

def typeName : Part → Text
  | .value v => v.typeName
  | .key k => k.typeName ++ " key"

/-- The part is a container that holds itself. -/
def IsEndless : Part → Prop
  | .value (.endless _) => True
  | _ => False

def isNonFinite : Part → Bool
  | .value (.float x) => !x.isFinite
  | _ => false

end Part

/-- A part that is met, and the turns that lead to it; those to a key lead to its dictionary. -/
structure Visit where
  trail : List Turn
  part : Part

namespace Visit

def placeOf (trail : List Turn) : Location := trail.foldl Turn.place .root

def place (x : Visit) : Location := placeOf x.trail

end Visit

namespace Value

mutual

/-- The walk through a value that turns lead to. -/
def visitsAt (trail : List Turn) : Value → List Visit
  | .list items => ⟨trail, .value (.list items)⟩ :: visitsOfItems trail 0 items
  | .dict entries => ⟨trail, .value (.dict entries)⟩ :: visitsOfEntries trail entries
  | v => [⟨trail, .value v⟩]

/-- The walk through items, the first of which has the given index. -/
def visitsOfItems (trail : List Turn) (index : Nat) : List Value → List Visit
  | [] => []
  | v :: rest => visitsAt (trail ++ [.item index]) v ++ visitsOfItems trail (index + 1) rest

/-- The walk through keys and values. -/
def visitsOfEntries (trail : List Turn) : List (Value × Value) → List Visit
  | [] => []
  | (k, v) :: rest => ⟨trail, .key k⟩ :: (visitsAt (trail ++ [.key k]) v ++ visitsOfEntries trail rest)

end

/-- The walk through a value. -/
def visits (v : Value) : List Visit := visitsAt [] v

end Value

/-! ## Places -/

namespace Visit

theorem placeOf_concat (trail : List Turn) (t : Turn) : placeOf (trail ++ [t]) = t.place (placeOf trail) :=
  List.foldl_concat Turn.place .root t trail

theorem placeOf_key (trail : List Turn) {k : Value} {l : Label} (h : Label.ofValue? k = some l) :
    placeOf (trail ++ [.key k]) = (placeOf trail).key l := by
  rw [placeOf_concat, Turn.place, h]

/-- Behind a place that has a text, every turn adds its own. -/
theorem foldl_place {t : Text} (ht : t ≠ []) {trail : List Turn}
    (h : ∀ k, Turn.key k ∈ trail → ∃ s, k = .text s) :
    trail.foldl Turn.place (.plain t) = .plain (t ++ trail.flatMap Turn.text) := by
  induction trail generalizing t with
  | nil => rw [List.flatMap_nil, List.append_nil, List.foldl_nil]
  | cons turn rest ih =>
    have hplace : turn.place (.plain t) = .plain (t ++ turn.text) := by
      cases turn with
      | item index => simp [Turn.place, Turn.text, Location.item, Label.shown]
      | key k =>
        obtain ⟨s, rfl⟩ := h k List.mem_cons_self
        simp [Turn.place, Turn.text, Location.key, Label.ofValue?, Label.shown, Label.text, Value.text?, ht]
    rw [List.foldl_cons, hplace, List.flatMap_cons, ← List.append_assoc]
    exact ih (List.append_ne_nil_of_left_ne_nil ht _) fun k hk => h k (List.mem_cons_of_mem _ hk)

/-- The place that keys which are texts lead to. -/
theorem placeOf_eq {trail : List Turn} (h : ∀ k, Turn.key k ∈ trail → ∃ s, k = .text s) :
    placeOf trail = .plain (Turn.pathText trail) := by
  induction trail with
  | nil => rfl
  | cons turn rest ih =>
    have hrest : ∀ k, Turn.key k ∈ rest → ∃ s, k = .text s := fun k hk => h k (List.mem_cons_of_mem _ hk)
    cases turn with
    | item index => exact foldl_place (List.cons_ne_nil _ _) hrest
    | key k =>
      obtain ⟨s, rfl⟩ := h k List.mem_cons_self
      cases s with
      -- The root has no text, and after a key without text there is none either.
      | nil => exact ih hrest
      | cons c cs => exact foldl_place (List.cons_ne_nil c cs) hrest

end Visit

/-! ## Plain values -/

namespace Value

/-- What holds of the walk through items, by one item after the other. -/
theorem forall_mem_visitsOfItems {P : Part → Prop} {Q : Value → Prop} {items : List Value}
    (h : ∀ v ∈ items, ∀ trail, (∀ x ∈ visitsAt trail v, P x.part) ↔ Q v) (trail : List Turn) (index : Nat) :
    (∀ x ∈ visitsOfItems trail index items, P x.part) ↔ ∀ v ∈ items, Q v := by
  induction items generalizing index with
  | nil => simp [visitsOfItems]
  | cons v rest ih =>
    rw [List.forall_mem_cons] at h
    rw [visitsOfItems, List.forall_mem_append, List.forall_mem_cons, h.1, ih h.2]

/-- What holds of the walk through entries, by one entry after the other. -/
theorem forall_mem_visitsOfEntries {P : Part → Prop} {Q : Value → Prop} {entries : List (Value × Value)}
    (h : ∀ e ∈ entries, ∀ trail, (∀ x ∈ visitsAt trail e.2, P x.part) ↔ Q e.2) (trail : List Turn) :
    (∀ x ∈ visitsOfEntries trail entries, P x.part) ↔ ∀ e ∈ entries, P (.key e.1) ∧ Q e.2 := by
  induction entries with
  | nil => simp [visitsOfEntries]
  | cons e rest ih =>
    rw [List.forall_mem_cons] at h
    rw [visitsOfEntries, List.forall_mem_cons, List.forall_mem_append, List.forall_mem_cons, h.1, ih h.2, and_assoc]

/-- A value is plain exactly if it is finite and nothing on its walk offends. -/
theorem plain_iff_visitsAt (v : Value) (trail : List Turn) :
    (∀ x ∈ visitsAt trail v, x.part.offends = false ∧ ¬ x.part.IsEndless) ↔ v.Plain := by
  induction v generalizing trail with
  | null | bool | int | float | text =>
    exact iff_of_true (List.forall_mem_singleton.mpr ⟨rfl, id⟩) trivial
  | list items ih =>
    rw [plain_list_iff, visitsAt, List.forall_mem_cons,
      forall_mem_visitsOfItems (P := fun p => p.offends = false ∧ ¬ p.IsEndless) ih]
    exact and_iff_right ⟨rfl, id⟩
  | dict entries ih =>
    rw [plain_dict_iff, visitsAt, List.forall_mem_cons,
      forall_mem_visitsOfEntries (P := fun p => p.offends = false ∧ ¬ p.IsEndless) fun e he => (ih e he).2]
    refine (and_iff_right ⟨rfl, id⟩).trans (forall₂_congr fun e _ => and_congr_left' ?_)
    simp [Part.offends, Part.IsEndless]
  | endless => exact iff_of_false (fun h => (List.forall_mem_singleton.mp h).2 trivial) id
  | _ => exact iff_of_false (fun h => Bool.noConfusion (List.forall_mem_singleton.mp h).1) id

/-- A finite value is plain exactly if nothing on its walk offends. -/
theorem plain_iff_visits {v : Value} (h : ∀ x ∈ v.visits, ¬ x.part.IsEndless) :
    v.Plain ↔ ∀ x ∈ v.visits, x.part.offends = false := by
  rw [← plain_iff_visitsAt v []]
  exact forall₂_congr fun x hx => and_iff_left (h x hx)

end Value

end CanonStore
