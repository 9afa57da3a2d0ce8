import CanonStore.Canonical.OfValue
import CanonStore.Entry
import CanonStore.Json.Strict
import CanonStore.Schema.Accept

/-!
# Stored documents

The octets under which a value is stored are the canonical text of its document in UTF-8.
`Document.encode` accepts records, entries that keep the contract, and dictionaries and lists of plain
JSON values; `Document.decode` reads octets back as a value of a given type. All that goes wrong is
reported for the type at hand, and for the path if one is given. The steps take the name of the type, so that
instances of a caller's own classes go through the same ones (`Document.Content`, `Document.Reader`).
-/

namespace CanonStore

namespace Value

/-- The name under which a key that is no text is reported. -/
def keyTypeName (k : Value) : Text := k.typeName ++ " key"

mutual

/-- The place and type name of the first part that is no plain JSON value, in reading order. Fails on
a value that is nested too deeply: `depth` more containers may be opened. -/
def firstForeignAt (depth : Nat) (place : Location) : Value → Except Unit (Option (Location × Text))
  | .null | .bool _ | .int _ | .float _ | .text _ => .ok none
  | .dict entries =>
    if depth = 0 then .error () else firstForeignEntry (depth - 1) place entries
  | .list items => if depth = 0 then .error () else firstForeignItem (depth - 1) place 0 items
  | .endless _ => .error ()
  | .textMember m t => .ok (some (place, (Value.textMember m t).typeName))
  | .intMember m n => .ok (some (place, (Value.intMember m n).typeName))
  | .member m v => .ok (some (place, (Value.member m v).typeName))
  | .tuple items => .ok (some (place, (Value.tuple items).typeName))
  | .bytes b => .ok (some (place, (Value.bytes b).typeName))
  | .bytearray b => .ok (some (place, (Value.bytearray b).typeName))
  | .moment m => .ok (some (place, (Value.moment m).typeName))
  | .date d => .ok (some (place, (Value.date d).typeName))
  | .record type _ => .ok (some (place, type.name))
  | .entry type _ => .ok (some (place, type.name))
  | .foreign kind => .ok (some (place, kind.typeName))

/-- The first such part among items, the first of which has the given index. -/
def firstForeignItem (depth : Nat) (place : Location) (index : Nat) :
    List Value → Except Unit (Option (Location × Text))
  | [] => .ok none
  | v :: rest =>
    match firstForeignAt depth (place.item index) v with
    | .ok none => firstForeignItem depth place (index + 1) rest
    | found => found

/-- The first such part among entries; a key that is no text counts at the place of its dictionary. -/
def firstForeignEntry (depth : Nat) (place : Location) :
    List (Value × Value) → Except Unit (Option (Location × Text))
  | [] => .ok none
  | (k, v) :: rest =>
    match Label.ofValue? k with
    | none => .ok (some (place, k.keyTypeName))
    | some l =>
      match firstForeignAt depth (place.key l) v with
      | .ok none => firstForeignEntry depth place rest
      | found => found

end

/-- The place and type name of the first part of a value that is no plain JSON value. -/
def firstForeign (v : Value) : Except Unit (Option (Location × Text)) :=
  firstForeignAt Canonical.maxDepth .root v

end Value

namespace Document

def forFile : Option Text → Text
  | none => []
  | some path => " for file " ++ path

/-! ## Encoding -/

/-- The report on a value of a type that is not stored, for a reason. -/
def encodeFault (type : Text) (path : Option Text) (reason : Text) (cause : Option Fault)
    (details : List (Value × Value)) : Fault :=
  .located .encode ("Unable to encode " ++ type ++ forFile path ++ ": " ++ reason) path cause details

/-- The report on a value that is nested too deeply or without end. -/
def tooDeepFault (type : Text) (path : Option Text) : Fault :=
  encodeFault type path "cyclic or too deeply nested value" (some .tooDeep) []

/-- Demands that the document of a value hold plain JSON values only. -/
def requirePlain (type : Text) (document : Value) (path : Option Text) : Except Fault Value :=
  match document.firstForeign with
  | .error () => .error (tooDeepFault type path)
  | .ok none => .ok document
  | .ok (some (place, foreign)) =>
    let shown : Text := if place.text.isEmpty then "$" else place.shown
    .error (encodeFault type path (foreign ++ " at '" ++ shown ++ "' is not a plain JSON value") none
      [(.text "location", place.toValue), (.text "type", .text foreign)])

/-- The report on a conversion to a dictionary that fails. -/
def toDictFault (type : Text) (path : Option Text) (cause : Fault) : Fault :=
  encodeFault type path ("to_dict() failed: " ++ cause.kindName ++ ": " ++ cause.text) (some cause) []

/-- The report on a value whose type keeps no contract. -/
def noContractFault (type : Text) (path : Option Text) : Fault :=
  encodeFault type path "type does not implement a persistence contract" none [(.text "type", .text type)]

/-- What becomes of a fault that ends storing a value. A canonicalization fault is reported, and so is a value
nested too deeply; any other fault passes as it is. -/
def passFault (type : Text) (path : Option Text) : Fault → Fault
  | .tooDeep => tooDeepFault type path
  | .report .canonicalization content cause =>
    encodeFault type path (Fault.report .canonicalization content cause).text
      (some (.report .canonicalization content cause)) (content.details.dictEntries?.getD [])
  | other => other

/-- What becomes of a record, by the outcome of its dump. -/
def recordPayload (type : Text) (path : Option Text) : Except Fault Json → Except Fault Value
  | .ok j => .ok j.toValue
  | .error cause =>
    .error (if cause.isOfValue then encodeFault type path cause.text (some cause) []
      else passFault type path cause)

/-- What becomes of an entry, by the outcome of its conversion to a dictionary. -/
def entryPayload (type : Text) (path : Option Text) : Except Fault Value → Except Fault Value
  | .error cause => .error (toDictFault type path cause)
  | .ok document =>
    match document.dictEntries? with
    | some _ => requirePlain type document path
    | none => .error (encodeFault type path ("to_dict() returned " ++ document.typeName) none [])

/-- What becomes of a value before it is written. -/
def payload (v : Value) (path : Option Text) : Except Fault Value :=
  match v with
  | .record type fields => recordPayload type.name path ((type.dump fields).mapError DumpFault.toFault)
  | .dict _ | .list _ | .endless _ => requirePlain v.typeName v path
  | .entry type fields =>
    if !type.isStorable then .error (noContractFault type.name path)
    else entryPayload type.name path (type.toDict fields)
  -- The type has the method that its values have, but there is no value to call it on.
  | .foreign .ledgerEntryType =>
    .error (toDictFault v.typeName path
      (.plain .type "LedgerEntry.to_dict() missing 1 required positional argument: 'self'"))
  | _ => .error (noContractFault v.typeName path)

/-- The report on a payload without a canonical text. -/
def writeFault (type : Text) (path : Option Text) (fault : CanonicalFault) : Fault :=
  passFault type path fault.toFault

/-- A text that holds a surrogate has no octets. -/
def surrogateFault (fault : EncodingFault) : Fault := .plain .textEncoding fault.message

/-- The octets of a payload that was made of a value of a type. -/
def write (type : Text) (path : Option Text) (document : Value) : Except Fault Bytes :=
  match document.canonicalText with
  | .error fault => .error (writeFault type path fault)
  | .ok t => (Utf8.encode t).mapError surrogateFault

def encode (v : Value) (path : Option Text) : Except Fault Bytes := do
  write v.typeName path (← payload v path)

/-! ## Decoding -/

/-- What octets are read as. -/
inductive Target where
  | record (type : RecordType)
  | entry (type : EntryType)
  | dict
  | list
  /-- A type, known by its name, whose values are not stored. -/
  | other (name : Text)
  /-- A value instead of a type. -/
  | value (v : Value)

/-- The name of a target; a value goes by its literal. -/
def Target.name : Target → Except DisplayFault Text
  | .record type => .ok type.name
  | .entry type => .ok type.name
  | .dict => .ok "dict"
  | .list => .ok "list"
  | .other name => .ok name
  | .value v => v.display

/-- The target that a value is read back as: its own type. -/
def Target.ofValue (v : Value) : Target :=
  match v with
  | .record type _ => .record type
  | .entry type _ => .entry type
  | .dict _ | .endless .dict => .dict
  | .list _ | .endless .list => .list
  | v => .other v.typeName

def decodeFault (name : Text) (path : Option Text) (reason : Text) (cause : Option Fault) : Fault :=
  .located .decode ("Unable to decode " ++ name ++ forFile path ++ ": " ++ reason) path cause []

/-- The fault of octets that are no JSON document. -/
def malformed : Json.BytesFault → Fault
  | .encoding fault => .plain .textDecoding fault.message
  | .document .tooDeep => .tooDeep
  | .document (.oversized digits) => .plain .value (Json.oversizedText digits)
  | .document fault => .plain .jsonSyntax fault.message

/-- Reads octets and checks what they hold in one go, so there is no malformed document to report first. -/
def readRecord {α : Type} (bytes : Bytes) (accept : Json → Except Fault α) : Except Fault α :=
  match Json.readStrict? bytes with
  | none => .error (.invalid [⟨.jsonInvalid, []⟩])
  | some j => accept j

/-- What becomes of a fault that ends reading a record. -/
def recordFault (name : Text) (path : Option Text) (cause : Fault) : Fault :=
  if cause.isOfValue then decodeFault name path cause.text (some cause) else cause

/-- Reads octets as a document. A document nested too deeply is not reported. -/
def readDocument (name : Text) (path : Option Text) (bytes : Bytes) : Except Fault Value :=
  match (Json.readBytes bytes).mapError malformed with
  | .error .tooDeep => .error .tooDeep
  | .error cause => .error (decodeFault name path ("malformed document: " ++ cause.text) (some cause))
  | .ok j => .ok j.toValue

/-- The report on a document of another kind than the target. -/
def kindFault (name : Text) (path : Option Text) (document : Value) : Fault :=
  decodeFault name path ("document holds " ++ document.typeName) none

/-- Makes an entry of a document, which has to be a dictionary. -/
def readEntry {α : Type} (name : Text) (path : Option Text)
    (ofDict : List (Value × Value) → Except Fault α) : Value → Except Fault α
  | .dict entries =>
    (ofDict entries).mapError fun cause =>
      decodeFault name path (cause.kindName ++ ": " ++ cause.text) (some cause)
  | document => .error (kindFault name path document)

/-- Reads a document as a target that is no record. -/
def decodeAs (target : Target) (name : Text) (path : Option Text) (document : Value) :
    Except Fault Value :=
  let noContract : Except Fault Value :=
    .error (decodeFault name path "type does not implement a persistence contract" none)
  match target, document with
  | .dict, .dict _ | .list, .list _ => .ok document
  | .dict, _ | .list, _ => .error (kindFault name path document)
  | .entry type, document => if !type.hasOfDict then noContract else readEntry name path type.ofDict document
  | _, _ => noContract

/-- Reads octets as a value of a target. -/
def decode (bytes : Bytes) (target : Target) (path : Option Text) : Except Fault Value :=
  match target.name with
  | .error fault => .error fault.toFault
  | .ok name =>
    match target with
    | .record type =>
      (readRecord bytes fun j => (type.ofJson j).mapError .invalid).mapError (recordFault name path)
    | _ => do decodeAs target name path (← readDocument name path bytes)

end Document

end CanonStore
