import CanonStore.Yaml.Node
import CanonStore.Yaml.Scalar

/-!
# Values of documents

The value that a tree of nodes denotes. Collections are filled level by level, so of two faults the one
that lies less deep is reported; on one level it is the one that comes first.
-/

namespace CanonStore.Yaml

/-- A fault and the level on which it is found. -/
structure LevelFault where
  level : Nat
  fault : YamlFault

def LevelFault.earlier : Option LevelFault → Option LevelFault → Option LevelFault
  | none, g => g
  | f, none => f
  -- On the same level the first one stays.
  | some f, some g => if g.level < f.level then some g else some f

/-- Something made of nodes; it counts only if there is no fault. -/
structure Made (α : Type) where
  content : α
  fault : Option LevelFault

namespace Made

def good {α : Type} (a : α) : Made α := ⟨a, none⟩

def bad (level : Nat) (fault : YamlFault) : Made Value := ⟨.null, some ⟨level, fault⟩⟩

def ofAttempt (level : Nat) : Except YamlFault Value → Made Value
  | .ok v => good v
  | .error fault => bad level fault

def map {α β : Type} (f : α → β) (m : Made α) : Made β := ⟨f m.content, m.fault⟩

def both {α β γ : Type} (f : α → β → γ) (m : Made α) (n : Made β) : Made γ :=
  ⟨f m.content n.content, LevelFault.earlier m.fault n.fault⟩

/-- Adds a fault that is found before all others of its level. -/
def after {α : Type} (fault : Option LevelFault) (m : Made α) : Made α :=
  { m with fault := LevelFault.earlier fault m.fault }

end Made

def isKey : Value → Bool
  | .list _ | .dict _ | .endless _ | .foreign .set => false
  | _ => true

namespace Node

/-- The text of a node that has to be a scalar. A mapping with a main value stands for that. -/
def mainText? : Node → Option Text
  | .scalar _ t => some t
  | .mapping _ entries => mainOf? entries
  | _ => none
where
  /-- The text of the main value of a mapping. -/
  mainOf? : List (Node × Node) → Option Text
    | [] => none
    | (.scalar .main _, v) :: _ => mainText? v
    | (_, _) :: rest => mainOf? rest

def isMerge : Node → Bool
  | .scalar .merge _ => true
  | _ => false

/-- A key whose text is the sign for the main value is a text. -/
def asKey : Node → Node
  | .scalar .main t => .scalar .text t
  | n => n

/-- The entries of the mappings among some nodes, those of the last first. -/
def joined (maps : List (List (Node × Node))) : List (Node × Node) := maps.reverse.flatten

mutual

/-- The entries that a node merges into the mapping around it; `rounds` bounds the nesting. -/
def mergeable : Nat → Node → Except YamlFault (List (Node × Node))
  | 0, _ => .error .tooDeep
  | rounds + 1, n =>
    match n with
    | .mapping _ entries => flatten rounds entries
    | .sequence _ items => (items.mapM (mergeableItem rounds)).map joined
    -- A mapping gains nothing by being merged into itself.
    | .enclosing .dict => .ok []
    | _ => .error badValue
termination_by structural rounds => rounds

/-- The entries of an item in a list of mappings to be merged. -/
def mergeableItem : Nat → Node → Except YamlFault (List (Node × Node))
  | 0, _ => .error .tooDeep
  | rounds + 1, n =>
    match n with
    | .mapping _ entries => flatten rounds entries
    | .enclosing .dict => .ok []
    | _ => .error badValue
termination_by structural rounds => rounds

/-- Entries with what they merge in front of all others. -/
def flatten : Nat → List (Node × Node) → Except YamlFault (List (Node × Node))
  | 0, _ => .error .tooDeep
  | rounds + 1, entries => do
    let merged ← (entries.filter fun e => e.1.isMerge).mapM fun e => mergeable rounds e.2
    -- What is merged comes first, so the own entries win where the keys are the same.
    pure (merged.flatten ++ (entries.filter fun e => !e.1.isMerge).map fun e => (e.1.asKey, e.2))
termination_by structural rounds => rounds

end

/-- Keys and values without their places. -/
abbrev Entries := List (Value × Value)

mutual

/-- The value of a node that is found on a level; a collection is filled on the next one. `rounds`
exceeds the number of nodes. -/
def make : Nat → Nat → Node → Made Value
  | 0, level, _ => .bad level .tooDeep
  | rounds + 1, level, n =>
    match n with
    | .enclosing shape => .good (.endless shape)
    | .scalar tag t =>
      match tag with
      -- A collection is made empty first and filled on the next level, where its node turns out to be none.
      | .sequence | .mapping | .pairs | .orderedPairs | .set => .bad (level + 1) badValue
      | tag => .ofAttempt level (scalarValue tag t)
    | .sequence tag items =>
      match tag with
      | .sequence => (makeItems rounds (level + 1) items).map .list
      | .pairs | .orderedPairs => (makePairs rounds (level + 1) items).map .list
      | .mapping | .set => .bad (level + 1) badValue
      | _ => .bad level badValue
    | .mapping tag entries =>
      match tag with
      | .mapping => (makeMapping rounds (level + 1) entries).map fun es => .dict (Value.joinEntries es)
      | .set => (makeMapping rounds (level + 1) entries).map fun _ => .foreign .set
      | .sequence | .pairs | .orderedPairs => .bad (level + 1) badValue
      | tag =>
        -- Under the tag of a scalar a mapping stands for its main value.
        match Node.mainText? (.mapping tag entries) with
        | some t => .ofAttempt level (scalarValue tag t)
        | none => .bad level badValue
termination_by structural rounds => rounds

def makeItems : Nat → Nat → List Node → Made (List Value)
  | 0, level, _ => (Made.bad level .tooDeep).map fun _ => []
  | _ + 1, _, [] => .good []
  | rounds + 1, level, n :: rest =>
    Made.both (· :: ·) (make rounds level n) (makeItems rounds level rest)
termination_by structural rounds => rounds

/-- The pairs that a sequence of mappings with one entry each denotes. -/
def makePairs : Nat → Nat → List Node → Made (List Value)
  | 0, level, _ => (Made.bad level .tooDeep).map fun _ => []
  | _ + 1, _, [] => .good []
  | rounds + 1, level, n :: rest =>
    let pair : Made Value :=
      match n with
      | .mapping _ [(k, v)] =>
        Made.both (fun k v => .tuple [k, v]) (make rounds level k) (make rounds level v)
      | _ => .bad level badValue
    Made.both (· :: ·) pair (makePairs rounds level rest)
termination_by structural rounds => rounds

def makeMapping : Nat → Nat → List (Node × Node) → Made Entries
  | 0, level, _ => (Made.bad level .tooDeep).map fun _ => []
  | rounds + 1, level, entries =>
    match flatten rounds entries with
    | .error fault => (Made.bad level fault).map fun _ => []
    | .ok entries => makeEntries rounds level entries
termination_by structural rounds => rounds

/-- Keys and values in order. Only some values can be keys. -/
def makeEntries : Nat → Nat → List (Node × Node) → Made Entries
  | 0, level, _ => (Made.bad level .tooDeep).map fun _ => []
  | _ + 1, _, [] => .good []
  | rounds + 1, level, (k, v) :: rest =>
    let key := make rounds level k
    -- A collection is no key, and that is found before its parts are made.
    let keyFault : Option LevelFault := if isKey key.content then none else some ⟨level, badValue⟩
    let entry := Made.both Prod.mk (key.after keyFault) (make rounds level v)
    Made.both (· :: ·) entry (makeEntries rounds level rest)
termination_by structural rounds => rounds

end

mutual

def size : Node → Nat
  | .scalar _ _ | .enclosing _ => 1
  | .sequence _ items => sizeItems items + 1
  | .mapping _ entries => sizeEntries entries + 1

def sizeItems : List Node → Nat
  | [] => 0
  | n :: rest => size n + sizeItems rest

/-- How many nodes there are in keys and values. -/
def sizeEntries : List (Node × Node) → Nat
  | [] => 0
  | (k, v) :: rest => size k + size v + sizeEntries rest

end

def toValue (n : Node) : Except YamlFault Value :=
  let made := n.make (4 * n.size + 10) 0
  match made.fault with
  | some f => .error f.fault
  | none => .ok made.content

end Node

end CanonStore.Yaml
