import CanonStore.Yaml.Cursor

/-!
# Tokens of YAML

The tokens that a document is made of. Indentation shows in tokens of its own: a collection in block
style starts and ends with one.
-/

namespace CanonStore.Yaml

/-- A line that starts with a percent sign. -/
inductive Directive where
  | version (major minor : Nat)
  | tag (handle base : Text)
  | other
deriving DecidableEq

/-- A token. -/
inductive Token where
  | directive (d : Directive)
  | documentStart
  | documentEnd
  | blockSequenceStart
  | blockMappingStart
  | blockEnd
  | flowSequenceStart
  | flowSequenceEnd
  | flowMappingStart
  | flowMappingEnd
  | blockEntry
  | flowEntry
  | key
  | value
  | reference (name : Text)
  | anchor (name : Text)
  | tag (handle : Option Text) (suffix : Text)
  | scalar (text : Text) (isPlain : Bool)
  | streamEnd
deriving DecidableEq

/-- Tokens up to the end of the document, or up to a fault. -/
structure Tokens where
  items : List Token
  fault : Option YamlFault

end CanonStore.Yaml
