import CanonStore.Document

/-!
# Classes of a caller

A caller may bring classes of its own. An instance is stored if its class keeps one of two contracts, and octets
are read as any such class. The instances of a record class are dumped as documents and read from documents, of
whatever kind these are; the instances of an entry class are turned into dictionaries and made of dictionaries.
The records and entries among the values are the instances of the classes that come with the library.
-/

namespace CanonStore

/-- A class whose instances are dumped as documents and read from documents. -/
structure RecordClass where
  name : Text
  Instance : Type
  dump : Instance → Except Fault Json
  accept : Json → Except Fault Instance

/-- A class whose instances are turned into dictionaries and made of dictionaries. Both may fail in any way, but
are not interrupted. -/
structure EntryClass where
  name : Text
  Instance : Type
  toDict : Instance → Except Fault Value
  ofDict : List (Value × Value) → Except Fault Instance

namespace Document

/-- What a caller has stored. -/
inductive Content where
  | value (v : Value)
  | record (type : RecordClass) (x : type.Instance)
  | entry (type : EntryClass) (x : type.Instance)

namespace Content

def typeName : Content → Text
  | .value v => v.typeName
  | .record type _ => type.name
  | .entry type _ => type.name

/-- What becomes of a content before it is written. -/
def payload (path : Option Text) : Content → Except Fault Value
  | .value v => Document.payload v path
  | .record type x => recordPayload type.name path (type.dump x)
  | .entry type x => entryPayload type.name path (type.toDict x)

def encode (content : Content) (path : Option Text) : Except Fault Bytes := do
  write content.typeName path (← content.payload path)

end Content

/-- What a caller has octets read as. -/
inductive Reader where
  | target (t : Target)
  | record (type : RecordClass)
  | entry (type : EntryClass)

namespace Reader

/-- What a reader gives. -/
def Result : Reader → Type
  | .target _ => Value
  | .record type => type.Instance
  | .entry type => type.Instance

def decode (bytes : Bytes) (path : Option Text) : (reader : Reader) → Except Fault reader.Result
  | .target t => Document.decode bytes t path
  | .record type => (readRecord bytes type.accept).mapError (recordFault type.name path)
  | .entry type => do readEntry type.name path type.ofDict (← readDocument type.name path bytes)

end Reader

end Document

end CanonStore
