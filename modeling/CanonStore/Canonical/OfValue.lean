import CanonStore.Canonical
import CanonStore.Schema.Dump

/-!
# Canonical trees of values

`Canonical.ofValue` converts a value part by part: moments become their canonical text, octets base64,
tuples lists, records the documents they dump to. Nothing is dropped and nothing is guessed: a part
without a canonical form is a fault that names the place.
-/

namespace CanonStore

/-- Why a value has no canonical form. -/
inductive CanonicalFault where
  /-- A float that is not finite. -/
  | nonFinite (place : Location) (x : Binary64)
  /-- A key that is no text, with the name of its type and the key as a literal. -/
  | keyNotText (place : Location) (type shown : Text)
  /-- A value of a type that has no canonical form. -/
  | unsupported (place : Location) (type : Text)
  /-- A record that is no document. -/
  | record (place : Location) (type : RecordType) (cause : DumpFault)
  /-- An integer with too many digits to be written, in a value of the given type. -/
  | oversized (type : Text)
  /-- Too many containers inside one another. -/
  | tooDeep
  /-- A moment whose date in UTC does not exist. -/
  | outOfCalendar
  /-- A key that is no text and cannot be shown either. -/
  | unshownKey

namespace CanonicalFault

/-- The fault for callers. The last three kinds are not reported as canonicalization faults. -/
def toFault : CanonicalFault → Fault
  | .nonFinite place x =>
    .canonicalization ("Non-finite float value encountered: " ++ x.text)
      [("path", place.toValue), ("value", .text x.text)] none
  | .keyNotText place type shown =>
    .canonicalization ("Dictionary keys must be strings, got " ++ type)
      [("path", place.toValue), ("key", .text shown)] none
  | .unsupported place type =>
    .canonicalization ("Cannot canonicalize value of type " ++ type)
      [("path", place.toValue), ("type", .text type)] none
  | .record place type cause =>
    .canonicalization ("Cannot serialize " ++ type.name ++ ": " ++ cause.message)
      [("path", place.toValue), ("type", .text type.name)] (some cause.toFault)
  | .oversized type =>
    .canonicalization ("Failed to serialize to canonical JSON: " ++ Json.unwritableText)
      [("type", .text type), ("error", .text Json.unwritableText)]
      (some (.plain .value Json.unwritableText))
  | .tooDeep => .tooDeep
  | .outOfCalendar => .plain .overflow "date value out of range"
  | .unshownKey => .plain .value Json.unwritableText

/-- The fault is reported as a canonicalization fault. -/
def isReport : CanonicalFault → Bool
  | .tooDeep | .outOfCalendar | .unshownKey => false
  | _ => true

end CanonicalFault

namespace Canonical

/-- How many containers may lie inside one another. The stack sets the bound: a list puts two frames on it, so what is
written is nested half as deeply as what can be read. -/
def maxDepth : Nat := 490

def ofFloat (place : Location) (x : Binary64) : Except CanonicalFault Canonical :=
  if x.isFinite then .ok (.float x) else .error (.nonFinite place x)

mutual

/-- The tree of a document; `depth` more containers may be opened. -/
def ofJson (depth : Nat) (place : Location) : Json → Except CanonicalFault Canonical
  | .null => .ok .null
  | .bool b => .ok (.bool b)
  | .int n => .ok (.int n)
  | .float x => ofFloat place x
  | .text t => .ok (.text (.plain t))
  | .list items =>
    if depth = 0 then .error .tooDeep else (ofJsonItems (depth - 1) place 0 items).map .list
  | .object members =>
    if depth = 0 then .error .tooDeep else (ofJsonMembers (depth - 1) place members).map .object

/-- The trees of items, the first of which has the given index. -/
def ofJsonItems (depth : Nat) (place : Location) (index : Nat) :
    List Json → Except CanonicalFault (List Canonical)
  | [] => .ok []
  | j :: rest => do
    let c ← ofJson depth (place.item index) j
    let cs ← ofJsonItems depth place (index + 1) rest
    pure (c :: cs)

def ofJsonMembers (depth : Nat) (place : Location) :
    List (Text × Json) → Except CanonicalFault (List (Label × Canonical))
  | [] => .ok []
  | (k, j) :: rest => do
    let c ← ofJson depth (place.key (.plain k)) j
    let ms ← ofJsonMembers depth place rest
    pure ((.plain k, c) :: ms)

end

/-- The label of a key, or the fault of a key that is none. -/
def keyLabel (place : Location) (k : Value) : Except CanonicalFault Label :=
  match Label.ofValue? k with
  | some l => .ok l
  | none =>
    match k.display with
    -- The report shows the key, so a key that cannot be shown is a fault of another kind.
    | .ok shown => .error (.keyNotText place k.typeName shown)
    | .error .oversized => .error .unshownKey
    | .error .tooDeep => .error .tooDeep

mutual

/-- The tree of a value at a place; `depth` more containers may be opened. -/
def ofValueAt (depth : Nat) (place : Location) : Value → Except CanonicalFault Canonical
  | .null => .ok .null
  | .bool b => .ok (.bool b)
  | .int n => .ok (.int n)
  | .intMember m n => .ok (.intMember m n)
  | .float x => ofFloat place x
  | .text t => .ok (.text (.plain t))
  | .textMember m t => .ok (.text (.member m t))
  | .moment m =>
    match m.canonicalText? with
    | some t => .ok (.text (.plain t))
    | none => .error .outOfCalendar
  -- A member with a value of its own stands for that value, one level deeper.
  | .member _ v => if depth = 0 then .error .tooDeep else ofValueAt (depth - 1) place v
  | .record type fields =>
    -- The whole record is dumped before any part of it is looked at: a fault in dumping is told of the
    -- record, a number that is not finite of its place in the document.
    match type.dump fields with
    | .ok j => ofJson depth place j
    | .error cause => .error (.record place type cause)
  | .dict entries =>
    if depth = 0 then .error .tooDeep else (ofEntries (depth - 1) place entries).map .object
  | .list items | .tuple items =>
    if depth = 0 then .error .tooDeep else (ofItems (depth - 1) place 0 items).map .list
  | .bytes b | .bytearray b => .ok (.text (.plain (Base64.encode b)))
  -- It would be followed until no container may be opened any more.
  | .endless _ => .error .tooDeep
  | .date d => .error (.unsupported place (Value.date d).typeName)
  | .entry type fields => .error (.unsupported place (Value.entry type fields).typeName)
  | .foreign kind => .error (.unsupported place kind.typeName)

/-- The trees of items, the first of which has the given index. -/
def ofItems (depth : Nat) (place : Location) (index : Nat) :
    List Value → Except CanonicalFault (List Canonical)
  | [] => .ok []
  | v :: rest => do
    let c ← ofValueAt depth (place.item index) v
    let cs ← ofItems depth place (index + 1) rest
    pure (c :: cs)

def ofEntries (depth : Nat) (place : Location) :
    List (Value × Value) → Except CanonicalFault (List (Label × Canonical))
  | [] => .ok []
  | (k, v) :: rest => do
    -- The key is looked at before its value, and the place that it makes is the place of the value.
    let l ← keyLabel place k
    let c ← ofValueAt depth (place.key l) v
    let ms ← ofEntries depth place rest
    pure ((l, c) :: ms)

end

/-- The canonical tree of a value that is found at a place. -/
def ofValue (place : Location) (v : Value) : Except CanonicalFault Canonical :=
  ofValueAt maxDepth place v

end Canonical

namespace Value

def canonicalText (v : Value) : Except CanonicalFault Text := do
  let c ← Canonical.ofValue .root v
  let j := c.toJson
  -- Integers are written at the very end, so all other faults come before this one.
  if j.hasOversized then .error (.oversized v.typeName) else .ok j.write

/-- Both values have a canonical text, and it is the same one. A fault that is not reported as a
canonicalization fault is handed on. -/
def canonicalEquals (v w : Value) : Except CanonicalFault Bool :=
  match v.canonicalText with
  | .error fault => if fault.isReport then .ok false else .error fault
  | .ok t =>
    match w.canonicalText with
    | .error fault => if fault.isReport then .ok false else .error fault
    | .ok u => .ok (t = u)

end Value

end CanonStore
