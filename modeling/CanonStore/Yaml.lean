import CanonStore.Yaml.Value

/-!
# YAML

Reading a YAML document: text, tokens, nodes, value.
-/

namespace CanonStore.Yaml

/-- The value of the only document in a text, null if there is none. -/
def read (t : Text) : Except YamlFault Value := do
  match ← Node.ofTokens (Tokens.ofText t) with
  | none => pure .null
  | some n => n.toValue

end CanonStore.Yaml
