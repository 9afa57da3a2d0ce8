import CanonStore.Json.Reader

/-!
# Strict reading

Records are read from documents that keep to tighter rules: UTF-8 without a byte order mark, no
surrogate without a partner, and at most `maxNesting` containers inside one another, empty ones aside.
A document that breaks a rule is none; why does not matter.
-/

namespace CanonStore.Json

/-- How many containers that are not empty may lie inside one another. -/
def maxNesting : Nat := 200

mutual

/-- How many containers that are not empty lie inside one another. -/
def nesting : Json → Nat
  | .list [] | .object [] => 0
  | .list items => itemsNesting items + 1
  | .object members => membersNesting members + 1
  | _ => 0

def itemsNesting : List Json → Nat
  | [] => 0
  | j :: rest => max (nesting j) (itemsNesting rest)

/-- The deepest nesting among the values of members. -/
def membersNesting : List (Text × Json) → Nat
  | [] => 0
  | (_, j) :: rest => max (nesting j) (membersNesting rest)

end

mutual

/-- Some string of the document holds a surrogate. -/
def hasSurrogate : Json → Bool
  | .text t => t.any CodePoint.isSurrogate
  | .list items => itemsSurrogate items
  | .object members => membersSurrogate members
  | _ => false

/-- Some string in the items holds a surrogate. -/
def itemsSurrogate : List Json → Bool
  | [] => false
  | j :: rest => hasSurrogate j || itemsSurrogate rest

/-- Some key or some string in the values holds a surrogate. -/
def membersSurrogate : List (Text × Json) → Bool
  | [] => false
  | (k, j) :: rest => k.any CodePoint.isSurrogate || hasSurrogate j || membersSurrogate rest

end

/-- The document of octets that keep to all rules. -/
def readStrict? (bytes : Bytes) : Option Json :=
  match Utf8.decode false bytes with
  | .error _ => none
  | .ok s =>
    match readRaw s with
    | .error _ => none
    | .ok j => if j.hasSurrogate || maxNesting < j.nesting then none else some j.joined

end CanonStore.Json
