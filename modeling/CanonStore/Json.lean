import CanonStore.Binary64.Shortest

/-!
# JSON documents

The tree of a JSON document. An object is its list of members in their order; `Json.member?` looks a
key up. Numbers written without fraction and exponent are integers and all others are floats.
-/

namespace CanonStore

/-- A JSON document. -/
inductive Json where
  | null
  | bool (b : Bool)
  | int (n : Int)
  | float (x : Binary64)
  | text (t : Text)
  | list (items : List Json)
  | object (members : List (Text × Json))

namespace Json

instance : Inhabited Json := ⟨.null⟩

def lookup? (key : Text) (members : List (Text × Json)) : Option Json :=
  (members.find? fun m => m.1 = key).map (·.2)

def member? (key : Text) : Json → Option Json
  | .object members => lookup? key members
  | _ => none

/-- Sets a key: a new one goes to the end, a present one keeps its place and takes the new value. -/
def setMember (key : Text) (value : Json) : List (Text × Json) → List (Text × Json)
  | [] => [(key, value)]
  | (k, v) :: rest => if k = key then (k, value) :: rest else (k, v) :: setMember key value rest

/-- Members with repeated keys joined: the first place and the last value of each key remain. -/
def joinMembers (members : List (Text × Json)) : List (Text × Json) :=
  members.foldl (fun ms m => setMember m.1 m.2 ms) []

mutual

def joined : Json → Json
  | .list items => .list (joinedItems items)
  | .object members => .object (joinMembers (joinedValues members))
  | leaf => leaf

def joinedItems : List Json → List Json
  | [] => []
  | j :: rest => joined j :: joinedItems rest

/-- Joins repeated keys inside the values of members. -/
def joinedValues : List (Text × Json) → List (Text × Json)
  | [] => []
  | (k, j) :: rest => (k, joined j) :: joinedValues rest

end

end Json

end CanonStore
