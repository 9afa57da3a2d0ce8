import CanonStore.Schema
import CanonStore.Fault
import CanonStore.Base64
import CanonStore.Text.Utf8

/-!
# Records as documents

`RecordType.dump` turns a record into a document: each field under its label, as its shape says. What
lies in a mapping is dumped as the value shows itself. Octets become text on the way, base64 in the
durable record types and UTF-8 in the others; a moment becomes its text, a member its value.
-/

namespace CanonStore

/-- Why a record is no document. -/
inductive DumpFault where
  /-- No document holds a value of this type. -/
  | unknownType (name : Text)
  /-- Octets that are no UTF-8, with the position of the first wrong one. -/
  | notText (octet : UInt8) (position : Nat)
  /-- A value that holds itself. -/
  | endless
  /-- Too many containers inside one another. -/
  | tooDeep
deriving DecidableEq

namespace DumpFault

def message : DumpFault → Text
  | .unknownType name => "Unable to serialize unknown type: <class '" ++ name ++ "'>"
  | .notText octet position =>
    "'utf-8' codec can't decode byte 0x" ++ Numeral.hexPadded 2 octet.toNat ++ " in position " ++
      Numeral.ofNat position ++ ": invalid utf-8"
  | .endless => "Circular reference detected (id repeated)"
  | .tooDeep => "Circular reference detected (depth exceeded)"

def kind : DumpFault → FaultKind
  | .unknownType _ => .dumping
  | .notText _ _ => .textDecoding
  | .endless | .tooDeep => .value

def toFault (f : DumpFault) : Fault := .plain f.kind f.message

end DumpFault

namespace Dump

/-- How many containers a record may hold inside one another. -/
def maxDepth : Nat := 255

def octets (durable : Bool) (bytes : Bytes) : Except DumpFault Text :=
  if durable then .ok (Base64.encodeWith Base64.urlSafe bytes)
  else match Utf8.decode false bytes with
    | .ok t => .ok t
    | .error fault => .error (.notText (fault.octets.headD 0) fault.start)

/-- A float; one that is not finite is null outside durable records. -/
def float (durable : Bool) (x : Binary64) : Json :=
  if durable || x.isFinite then .float x else .null

/-- An entry type whose fields are open to all. -/
def isOpen : EntryType → Bool
  | .ledgerEntry | .runtimeConfig | .loggingConfig | .storageConfig => true
  | _ => false

mutual

def key (durable : Bool) : Value → Except DumpFault Text
  | .null => .ok "None"
  | .bool b => .ok (if b then "true" else "false")
  | .int n | .intMember _ n => .ok (Numeral.ofInt n)
  | .float x => .ok x.text
  | .text t | .textMember _ t => .ok t
  | .member _ v => key durable v
  | .tuple vs => (keys durable vs).map (Text.joinWith ",")
  | .bytes b | .bytearray b => octets durable b
  | .moment m => .ok m.isoText
  | .date d => .ok (d.text 4)
  | v => .error (.unknownType v.typeName)

/-- The texts that the items of a tuple become. -/
def keys (durable : Bool) : List Value → Except DumpFault (List Text)
  | [] => .ok []
  | v :: rest => do
    let t ← key durable v
    let ts ← keys durable rest
    pure (t :: ts)

end

/-- The shape of the items, where the shape of a list is known. -/
def itemShape? : Option Shape → Option Shape
  | some (.list item) => some item
  | _ => none

/-- A float as its shape says: a float field keeps what it holds. -/
def shapedFloat (durable : Bool) (shape? : Option Shape) (x : Binary64) : Json :=
  match shape? with
  | some .float => .float x
  | _ => float durable x

mutual

/-- A value as its shape says, or as it shows itself where no shape is known; `depth` more containers
may be opened. -/
def value (durable : Bool) (depth : Nat) (shape? : Option Shape) : Value → Except DumpFault Json
  | .null => .ok .null
  | .bool b => .ok (.bool b)
  | .int n | .intMember _ n => .ok (.int n)
  | .float x => .ok (shapedFloat durable shape? x)
  | .text t | .textMember _ t => .ok (.text t)
  -- The shape is that of the member; its value shows itself.
  | .member _ v => value durable depth none v
  | .bytes b | .bytearray b => (octets durable b).map .text
  | .moment m => .ok (.text m.isoText)
  | .date d => .ok (.text (d.text 4))
  | .list vs | .tuple vs =>
    if depth = 0 then .error .tooDeep
    else (items durable (depth - 1) (itemShape? shape?) vs).map .list
  | .dict es =>
    if depth = 0 then .error .tooDeep
    else (entries durable (depth - 1) es).map fun ms => .object (Json.joinMembers ms)
  -- A record inside another one dumps as its own type says, durable or not.
  | .record type fs =>
    if depth = 0 then .error .tooDeep
    else (fields type.isDurable (depth - 1) type.fields fs).map .object
  | .entry type fs =>
    if !isOpen type then .error (.unknownType type.name)
    else if depth = 0 then .error .tooDeep
    else (openFields durable (depth - 1) fs).map .object
  | .foreign kind => .error (.unknownType kind.typeName)
  | .endless _ => .error .endless

def items (durable : Bool) (depth : Nat) (shape? : Option Shape) :
    List Value → Except DumpFault (List Json)
  | [] => .ok []
  | v :: rest => do
    let j ← value durable depth shape? v
    let js ← items durable depth shape? rest
    pure (j :: js)

def entries (durable : Bool) (depth : Nat) : List (Value × Value) → Except DumpFault (List (Text × Json))
  | [] => .ok []
  | (k, v) :: rest => do
    let t ← key durable k
    let j ← value durable depth none v
    -- Keys that become the same text are kept here and joined by `value`.
    let ms ← entries durable depth rest
    pure ((t, j) :: ms)

/-- Fields that are open to all, under their names. -/
def openFields (durable : Bool) (depth : Nat) :
    List (Text × Value) → Except DumpFault (List (Text × Json))
  | [] => .ok []
  | (name, v) :: rest => do
    let j ← value durable depth none v
    let ms ← openFields durable depth rest
    pure ((name, j) :: ms)

def fields (durable : Bool) (depth : Nat) :
    List (FieldOf Shape) → List (Text × Value) → Except DumpFault (List (Text × Json))
  | f :: fs, (_, v) :: rest => do
    let j ← value durable depth (some f.shape) v
    let ms ← fields durable depth fs rest
    pure ((f.label, j) :: ms)
  | _, _ => .ok []
termination_by structural _ fs => fs

end

end Dump

def RecordType.dump (type : RecordType) (fields : List (Text × Value)) : Except DumpFault Json :=
  Dump.value type.isDurable Dump.maxDepth none (.record type fields)

end CanonStore
