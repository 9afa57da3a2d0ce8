import CanonStore.Fault
import CanonStore.Json.Writer

/-!
# The JSON document of a value

`Json.ofValue` is the document that shows a value to people. Keys become texts, tuples become lists,
and infinite numbers and those that are none pass; all else that JSON has no form for is refused, and so
is a value that is nested too deeply.
-/

namespace CanonStore.Json

/-- Why a value has no document. -/
inductive ValueFault where
  /-- A key of the given type. -/
  | badKey (type : Text)
  /-- A part of the given type. -/
  | badPart (type : Text)
  /-- An integer with too many digits. -/
  | oversized
  /-- A container that holds itself. -/
  | circular
  /-- Too many containers inside one another. -/
  | tooDeep
deriving DecidableEq

def ValueFault.toFault : ValueFault → CanonStore.Fault
  | .badKey type => .plain .type ("keys must be str, int, float, bool or None, not " ++ type)
  | .badPart type => .plain .type ("Object of type " ++ type ++ " is not JSON serializable")
  | .oversized => .plain .value unwritableText
  | .circular => .plain .value "Circular reference detected"
  | .tooDeep => .tooDeep

def ofInt (n : Int) : Except ValueFault Json := if isOversized n then .error .oversized else .ok (.int n)

def keyText : Value → Except ValueFault Text
  | .text t | .textMember _ t => .ok t
  | .null => .ok "null"
  | .bool b => .ok (boolText b)
  | .int n | .intMember _ n => if isOversized n then .error .oversized else .ok (Numeral.ofInt n)
  | .float x => .ok x.jsonText
  | v => .error (.badKey v.typeName)

/-- How many containers of a value may lie inside one another. The writer of indented text puts one frame on the stack
for each. -/
def maxValueDepth : Nat := 960

mutual

/-- The document of a value; `depth` more containers may be opened. -/
def ofValueAt (depth : Nat) : Value → Except ValueFault Json
  | .null => .ok .null
  | .bool b => .ok (.bool b)
  | .int n | .intMember _ n => ofInt n
  | .float x => .ok (.float x)
  | .text t | .textMember _ t => .ok (.text t)
  | .list items | .tuple items =>
    if depth = 0 then .error .tooDeep else (ofItems (depth - 1) items).map .list
  | .dict entries => if depth = 0 then .error .tooDeep else (ofEntries (depth - 1) entries).map .object
  -- A container inside itself is noticed, however few containers are open.
  | .endless _ => .error .circular
  | .member m v => .error (.badPart (Value.member m v).typeName)
  | .bytes _ => .error (.badPart "bytes")
  | .bytearray _ => .error (.badPart "bytearray")
  | .moment _ => .error (.badPart "datetime")
  | .date _ => .error (.badPart "date")
  | .record type _ => .error (.badPart type.name)
  | .entry type _ => .error (.badPart type.name)
  | .foreign kind => .error (.badPart kind.typeName)

def ofItems (depth : Nat) : List Value → Except ValueFault (List Json)
  | [] => .ok []
  | v :: rest => do
    let j ← ofValueAt depth v
    let js ← ofItems depth rest
    return j :: js

def ofEntries (depth : Nat) : List (Value × Value) → Except ValueFault (List (Text × Json))
  | [] => .ok []
  | (k, v) :: rest => do
    -- Two keys may become the same text here; both members are kept.
    let t ← keyText k
    let j ← ofValueAt depth v
    let members ← ofEntries depth rest
    return (t, j) :: members

end

def ofValue (v : Value) : Except ValueFault Json := ofValueAt maxValueDepth v

end CanonStore.Json
