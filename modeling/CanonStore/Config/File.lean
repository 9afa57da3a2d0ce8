import CanonStore.Config
import CanonStore.Text.File
import CanonStore.Yaml

/-!
# Configuration files

A configuration file is a YAML document that holds a mapping, or nothing.
-/

namespace CanonStore.Config

/-- The report on a configuration file that is not there. -/
def missingFile (path : Text) : Fault := .plain (.system .notFound) ("Config file not found: " ++ path)

/-- The report on a configuration file that holds something else than a mapping. -/
def notMappingFault (path : Text) (v : Value) : Fault :=
  .config ("Config file must contain a mapping: " ++ path)
    [("path", .text path), ("type", .text v.typeName)] none

/-- The configuration that the octets of a file describe. -/
def ofFile (path : Text) (octets : Bytes) : Except Fault Config := do
  let t ← (Text.ofFile octets).mapError fun fault => .plain .textDecoding fault.message
  let v ← (Yaml.read t).mapError YamlFault.toFault
  match v with
  | .null => pure standard
  | v =>
    if v.dictEntries?.isSome then (ofValue v).mapError ConfigFault.toFault
    else throw (notMappingFault path v)

end CanonStore.Config
