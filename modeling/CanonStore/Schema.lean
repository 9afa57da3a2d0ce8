import CanonStore.Value

/-!
# Schemas

What a record holds: fields with a name, a label under which the outside world knows them, a shape and
perhaps a default. A shape says which values a field accepts; shapes nest through lists and records.
`RecordType.fields` is the catalogue of all record types.
-/

namespace CanonStore

/-- A field of a record whose shape is a `σ`. -/
structure FieldOf (σ : Type) where
  /-- The name inside the library. -/
  name : Text
  /-- The name in documents and in what callers hand over. -/
  label : Text
  shape : σ
  /-- The value of a field that is not given; a field without one has to be given. -/
  default? : Option Value

/-- A bound on an integer. -/
inductive Bound where
  | atMost (n : Int)
  | below (n : Int)
  | atLeast (n : Int)
deriving DecidableEq

def Bound.holds (n : Int) : Bound → Bool
  | .atMost m => n ≤ m
  | .below m => n < m
  | .atLeast m => m ≤ n

/-- Which values a field accepts. -/
inductive Shape where
  | text
  | bytes
  /-- An integer within bounds, which are looked at in this order. -/
  | int (bounds : List Bound)
  | float
  | bool
  | moment
  /-- A dictionary with text keys and any values. -/
  | mapping
  | optionalText
  /-- A member of the enumeration of options. -/
  | option
  | callable
  | list (item : Shape)
  | record (type : RecordType) (fields : List (FieldOf Shape))

namespace Shape

/-- A field that has to be given, known by its own name. -/
def required (name : Text) (shape : Shape) : FieldOf Shape := ⟨name, name, shape, none⟩

/-- A field with a default, known by its own name. -/
def optional (name : Text) (shape : Shape) (value : Value) : FieldOf Shape :=
  ⟨name, name, shape, some value⟩

def anyInt : Shape := .int []

end Shape

/-! ## Options -/

/-- The enumeration of options: each member with the text that it stands for. -/
def optionMembers : List (Member × Text) :=
  [(⟨"SampleEnum", "OPTION_A"⟩, "option_a"), (⟨"SampleEnum", "OPTION_B"⟩, "option_b")]

/-- The option that a text stands for, as a value. -/
def optionOfText? (t : Text) : Option Value :=
  (optionMembers.find? fun o => o.2 = t).map fun o => .textMember o.1 o.2

/-! ## The catalogue -/

def nanosPerSecond : Nat := 1000000000

/-- The least number of seconds of a timestamp. -/
def minTimestampSeconds : Int := -0x8000000000000000

/-- The greatest number of seconds of a timestamp. -/
def maxTimestampSeconds : Int := 0x7FFFFFFFFFFFFFFF

open Shape in
def timestampFields : List (FieldOf Shape) :=
  [required "seconds" (.int [.atMost maxTimestampSeconds, .atLeast minTimestampSeconds]),
   optional "nanos" (.int [.below nanosPerSecond, .atLeast 0]) (.int 0)]

open Shape in
def transactionFields : List (FieldOf Shape) :=
  [required "tx_id" .text, optional "payload" .bytes (.bytes []), optional "amount" anyInt (.int 0),
   optional "fee" .float (.float .zero)]

namespace RecordType

open Shape in
def fields : RecordType → List (FieldOf Shape)
  | .timestamp => timestampFields
  | .chainError =>
    [required "code" .text, required "message" .text, optional "details" .mapping (.dict []),
     optional "retryable" .bool (.bool false), optional "fatal" .bool (.bool false)]
  | .transaction => transactionFields
  | .block =>
    [required "number" anyInt, required "previous_hash" .bytes,
     required "created_at" (.record .timestamp timestampFields),
     optional "transactions" (.list (.record .transaction transactionFields)) (.list []),
     optional "metadata" .mapping (.dict []), optional "note" .optionalText .null]
  | .receipt => [required "receipt_id" .text, required "status" anyInt]
  | .measurement => [required "value" .float]
  | .aliased =>
    [⟨"block_id", "blockId", anyInt, none⟩, ⟨"z_last", "aFirst", .text, some (.text "z")⟩]
  | .event => [required "at" .moment, optional "active" .bool (.bool true)]
  | .plainFloat => [required "value" .float]
  | .node => [required "data" .mapping]
  | .withCallback => [required "name" .text, required "callback" .callable]
  | .sampleModel =>
    [required "name" .text, required "count" anyInt,
     optional "kind" .option (.textMember ⟨"SampleEnum", "OPTION_A"⟩ "option_a")]

/-- The record type refuses fields that it does not know. Other types ignore them. -/
def isClosed : RecordType → Bool
  | .plainFloat | .node | .withCallback | .sampleModel => false
  | _ => true

/-- The record type is made to be stored: octets in it travel as base64 and floats that are not finite
stay what they are. In other types octets are text and such floats become null. -/
def isDurable : RecordType → Bool
  | .transaction | .block | .receipt | .measurement | .aliased | .event => true
  | _ => false

/-- The fields of a record of this type cannot be set. -/
def isFrozen : RecordType → Bool
  | .timestamp => true
  | _ => false

def shape (type : RecordType) : Shape := .record type type.fields

def all : List RecordType :=
  [.timestamp, .chainError, .transaction, .block, .receipt, .measurement, .aliased, .event, .plainFloat,
   .node, .withCallback, .sampleModel]

def ofName? (name : Text) : Option RecordType := all.find? fun t => t.name = name

end RecordType

end CanonStore
