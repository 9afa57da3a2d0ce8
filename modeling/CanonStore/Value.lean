import CanonStore.Calendar
import CanonStore.Json

/-!
# Values

The values that the store is handed: those that a JSON document can hold, and all the others that
have to be converted or refused. A value that holds itself is `endless`; every other value is a finite
tree.
-/

namespace CanonStore

/-- The record types that are described by a schema. A caller may have others, which are `RecordClass`es. -/
inductive RecordType where
  | timestamp
  | chainError
  | transaction
  | block
  | receipt
  | measurement
  | aliased
  | event
  | plainFloat
  | node
  | withCallback
  | sampleModel
deriving DecidableEq

def RecordType.name : RecordType → Text
  | .timestamp => "Timestamp"
  | .chainError => "ChainError"
  | .transaction => "Transaction"
  | .block => "Block"
  | .receipt => "Receipt"
  | .measurement => "Measurement"
  | .aliased => "Aliased"
  | .event => "Event"
  | .plainFloat => "PlainFloat"
  | .node => "Node"
  | .withCallback => "WithCallback"
  | .sampleModel => "SampleModel"

/-- The types that convert themselves to and from a dictionary, or fail to. -/
inductive EntryType where
  | ledgerEntry
  | rawEntry
  | brokenEntry
  | indexEntry
  | onlyToDict
  | onlyFromDict
  | opaqueEntry
  | runtimeConfig
  | loggingConfig
  | storageConfig
deriving DecidableEq

def EntryType.name : EntryType → Text
  | .ledgerEntry => "LedgerEntry"
  | .rawEntry => "RawEntry"
  | .brokenEntry => "BrokenEntry"
  | .indexEntry => "IndexEntry"
  | .onlyToDict => "OnlyToDict"
  | .onlyFromDict => "OnlyFromDict"
  | .opaqueEntry => "Opaque"
  | .runtimeConfig => "RuntimeConfig"
  | .loggingConfig => "LoggingConfig"
  | .storageConfig => "StorageConfig"

/-- Kinds of values that no document can hold. -/
inductive ForeignKind where
  | object
  | set
  | frozenset
  | function
  | builtin
  | complex
  | decimal
  | range
  | memoryview
  | timedelta
  | uuid
  | path
  /-- The entry type `LedgerEntry` itself, as a value. -/
  | ledgerEntryType
deriving DecidableEq

def ForeignKind.typeName : ForeignKind → Text
  | .object => "object"
  | .set => "set"
  | .frozenset => "frozenset"
  | .function => "function"
  | .builtin => "builtin_function_or_method"
  | .complex => "complex"
  | .decimal => "Decimal"
  | .range => "range"
  | .memoryview => "memoryview"
  | .timedelta => "timedelta"
  | .uuid => "UUID"
  | .path => "PosixPath"
  | .ledgerEntryType => "type"

def ForeignKind.isCallable : ForeignKind → Bool
  | .function | .builtin | .ledgerEntryType => true
  | _ => false

/-- A member of an enumeration. -/
structure Member where
  enumeration : Text
  name : Text
deriving DecidableEq

/-- The enumeration and the member, joined by a point. -/
def Member.label (m : Member) : Text := m.enumeration ++ "." ++ m.name

/-- A container that holds itself. -/
inductive EndlessShape where
  | list
  | dict
deriving DecidableEq

/-- A value. -/
inductive Value where
  | null
  | bool (b : Bool)
  | int (n : Int)
  | float (x : Binary64)
  | text (t : Text)
  /-- A member that is a text itself. -/
  | textMember (m : Member) (t : Text)
  /-- A member that is an integer itself. -/
  | intMember (m : Member) (n : Int)
  /-- A member that only has a value. -/
  | member (m : Member) (value : Value)
  | list (items : List Value)
  | tuple (items : List Value)
  | dict (entries : List (Value × Value))
  | bytes (b : Bytes)
  | bytearray (b : Bytes)
  | moment (m : Moment)
  | date (d : Date)
  | record (type : RecordType) (fields : List (Text × Value))
  | entry (type : EntryType) (fields : List (Text × Value))
  | foreign (kind : ForeignKind)
  | endless (shape : EndlessShape)

namespace Value

instance : Inhabited Value := ⟨.null⟩

def typeName : Value → Text
  | .null => "NoneType"
  | .bool _ => "bool"
  | .int _ => "int"
  | .float _ => "float"
  | .text _ => "str"
  | .textMember m _ | .intMember m _ | .member m _ => m.enumeration
  | .list _ | .endless .list => "list"
  | .tuple _ => "tuple"
  | .dict _ | .endless .dict => "dict"
  | .bytes _ => "bytes"
  | .bytearray _ => "bytearray"
  | .moment _ => "datetime"
  | .date _ => "date"
  | .record type _ => type.name
  | .entry type _ => type.name
  | .foreign kind => kind.typeName

/-! ## Keys -/

def number? : Value → Option (Binary64 ⊕ Int)
  | .bool b => some (.inr (if b then 1 else 0))
  | .int n | .intMember _ n => some (.inr n)
  | .float x => some (.inl x)
  | _ => none

/-- Equality of numbers across integers and floats. -/
def numberEq : Binary64 ⊕ Int → Binary64 ⊕ Int → Bool
  | .inl x, .inl y => x.numEq y
  | .inl x, .inr n | .inr n, .inl x => x.toInt? = some n
  | .inr m, .inr n => m = n

def text? : Value → Option Text
  | .text t | .textMember _ t => some t
  | _ => none

mutual

/-- Equality of two values as keys: numbers by what they count, texts by their code points, moments by
their instant, members and containers part by part. -/
def sameAs : Value → Value → Bool
  | .null, .null => true
  | .tuple xs, .tuple ys | .list xs, .list ys => sameItems xs ys
  | .bytes b, .bytes c | .bytearray b, .bytearray c | .bytes b, .bytearray c
  | .bytearray b, .bytes c => b = c
  | .moment m, .moment n => m.offset.isSome = n.offset.isSome && m.toMicros = n.toMicros
  | .date d, .date e => d = e
  | .member m _, .member n _ => m = n
  | .record s xs, .record t ys => s = t && sameFields xs ys
  | .entry s xs, .entry t ys => s = t && sameFields xs ys
  | .dict xs, .dict ys => xs.length = ys.length && entriesWithin xs ys
  | v, w =>
    match v.number?, w.number?, v.text?, w.text? with
    | some x, some y, _, _ => numberEq x y
    | _, _, some t, some u => t = u
    | _, _, _, _ => false
termination_by structural v => v

def sameItems : List Value → List Value → Bool
  | [], [] => true
  | v :: vs, w :: ws => sameAs v w && sameItems vs ws
  | _, _ => false
termination_by structural vs => vs

def sameFields : List (Text × Value) → List (Text × Value) → Bool
  | [], [] => true
  | (k, v) :: vs, (l, w) :: ws => k = l && sameAs v w && sameFields vs ws
  | _, _ => false
termination_by structural vs => vs

/-- Every entry of the first list has an equal one in the second. -/
def entriesWithin : List (Value × Value) → List (Value × Value) → Bool
  | [], _ => true
  | (k, v) :: rest, ys => ys.any (fun e => sameAs k e.1 && sameAs v e.2) && entriesWithin rest ys
termination_by structural xs => xs

end

/-- Sets an entry: a new key goes to the end, a present one keeps its place and takes the value. -/
def setEntry (key value : Value) : List (Value × Value) → List (Value × Value)
  | [] => [(key, value)]
  | (k, v) :: rest => if sameAs k key then (k, value) :: rest else (k, v) :: setEntry key value rest

/-- Entries with repeated keys joined: the first place and the last value of each remain. -/
def joinEntries (entries : List (Value × Value)) : List (Value × Value) :=
  entries.foldl (fun es e => setEntry e.1 e.2 es) []

def lookup? (key : Text) (entries : List (Value × Value)) : Option Value :=
  (entries.find? fun e => e.1.text? = some key).map (·.2)

def ofFields (fields : List (Text × Value)) : Value := .dict (fields.map fun f => (.text f.1, f.2))

def field? (name : Text) (fields : List (Text × Value)) : Option Value :=
  (fields.find? fun f => f.1 = name).map (·.2)

def dictEntries? : Value → Option (List (Value × Value))
  | .dict entries => some entries
  | .endless .dict => some [(.text "self", .endless .dict)]
  | _ => none

def listItems? : Value → Option (List Value)
  | .list items | .tuple items => some items
  | .endless .list => some [.endless .list]
  | _ => none

/-- The value counts as true in a test: zero, the empty text, empty containers and null do not. -/
def isTrue : Value → Bool
  | .null => false
  | .bool b => b
  | .int n | .intMember _ n => n ≠ 0
  | .float x => !x.isZero
  | .text t | .textMember _ t => !t.isEmpty
  | .list xs | .tuple xs => !xs.isEmpty
  | .dict es => !es.isEmpty
  | .bytes b | .bytearray b => !b.isEmpty
  | _ => true

end Value

namespace Json

mutual

def toValue : Json → Value
  | .null => .null
  | .bool b => .bool b
  | .int n => .int n
  | .float x => .float x
  | .text t => .text t
  | .list items => .list (itemsToValues items)
  | .object members => .dict (membersToEntries members)

def itemsToValues : List Json → List Value
  | [] => []
  | j :: rest => toValue j :: itemsToValues rest

def membersToEntries : List (Text × Json) → List (Value × Value)
  | [] => []
  | (k, j) :: rest => (.text k, toValue j) :: membersToEntries rest

end

end Json

end CanonStore
