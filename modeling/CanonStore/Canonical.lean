import CanonStore.Value
import CanonStore.Json.Writer

/-!
# Canonical trees

What a value becomes before it is written: the tree of a document in which texts and integers may
still be members of enumerations. `Canonical.toJson` forgets the members, and `Canonical.toValue` is
the tree as a value.
-/

namespace CanonStore

/-- A text, or a member that is one. -/
inductive Label where
  | plain (t : Text)
  | member (m : Member) (t : Text)
deriving DecidableEq

namespace Label

instance : Inhabited Label := ⟨.plain []⟩

def text : Label → Text
  | .plain t | .member _ t => t

/-- The label inside a longer text: a member goes by its name. -/
def shown : Label → Text
  | .plain t => t
  | .member m _ => m.label

def toValue : Label → Value
  | .plain t => .text t
  | .member m t => .textMember m t

def ofValue? : Value → Option Label
  | .text t => some (.plain t)
  | .textMember m t => some (.member m t)
  | _ => none

end Label

/-- A place inside a value: the keys and indexes that lead to it. The place itself is a label, because
the first key stands for itself. -/
abbrev Location := Label

namespace Location

def root : Location := .plain []

/-- The entry of a key: the key alone at the root, after a point elsewhere. -/
def key (place : Location) (k : Label) : Location :=
  if place.text.isEmpty then k else .plain (place.shown ++ "." ++ k.shown)

def item (place : Location) (index : Nat) : Location :=
  .plain (place.shown ++ "[" ++ Numeral.ofNat index ++ "]")

end Location

/-- A canonical tree. -/
inductive Canonical where
  | null
  | bool (b : Bool)
  | int (n : Int)
  | intMember (m : Member) (n : Int)
  | float (x : Binary64)
  | text (l : Label)
  | list (items : List Canonical)
  | object (members : List (Label × Canonical))

namespace Canonical

instance : Inhabited Canonical := ⟨.null⟩

mutual

def toJson : Canonical → Json
  | .null => .null
  | .bool b => .bool b
  | .int n | .intMember _ n => .int n
  | .float x => .float x
  | .text l => .text l.text
  | .list items => .list (itemsToJson items)
  | .object members => .object (membersToJson members)

def itemsToJson : List Canonical → List Json
  | [] => []
  | c :: rest => toJson c :: itemsToJson rest

def membersToJson : List (Label × Canonical) → List (Text × Json)
  | [] => []
  | (l, c) :: rest => (l.text, toJson c) :: membersToJson rest

end

mutual

def toValue : Canonical → Value
  | .null => .null
  | .bool b => .bool b
  | .int n => .int n
  | .intMember m n => .intMember m n
  | .float x => .float x
  | .text l => l.toValue
  | .list items => .list (itemsToValues items)
  | .object members => .dict (membersToEntries members)

def itemsToValues : List Canonical → List Value
  | [] => []
  | c :: rest => toValue c :: itemsToValues rest

def membersToEntries : List (Label × Canonical) → List (Value × Value)
  | [] => []
  | (l, c) :: rest => (l.toValue, toValue c) :: membersToEntries rest

end

end Canonical

end CanonStore
