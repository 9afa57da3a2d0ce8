import CanonStore.Config

/-!
# Entries

The types that convert themselves. An entry type may be made from arguments, turned into a dictionary
and read back from one; each of these can fail in its own way. A type that has both conversions keeps
the contract for being stored.
-/

namespace CanonStore

/-- A parameter of a type, with the value that it takes when it is not given. -/
structure Parameter where
  name : Text
  default? : Option Value

namespace EntryType

def all : List EntryType :=
  [.ledgerEntry, .rawEntry, .brokenEntry, .indexEntry, .onlyToDict, .onlyFromDict, .opaqueEntry,
   .runtimeConfig, .loggingConfig, .storageConfig]

def ofName? (name : Text) : Option EntryType := all.find? fun t => t.name = name

/-- Entries of the type can be turned into a dictionary. -/
def hasToDict : EntryType → Bool
  | .ledgerEntry | .rawEntry | .brokenEntry | .indexEntry | .onlyToDict | .runtimeConfig => true
  | _ => false

/-- Entries of the type can be read from a dictionary. -/
def hasOfDict : EntryType → Bool
  | .ledgerEntry | .rawEntry | .brokenEntry | .indexEntry | .onlyFromDict | .runtimeConfig => true
  | _ => false

/-- The type keeps the contract for being stored. -/
def isStorable (type : EntryType) : Bool := type.hasToDict && type.hasOfDict

/-! ## Making entries -/

/-- The fields of the standard section on logging. -/
def standardLogging : Value := .entry .loggingConfig [("level", .text "INFO"), ("file", .null)]

/-- The fields of the standard section on storage. -/
def standardStorage : Value := .entry .storageConfig [("base_dir", .null)]

def parameters : EntryType → List Parameter
  | .ledgerEntry => [⟨"key", none⟩, ⟨"version", none⟩, ⟨"tags", some (.list [])⟩]
  | .rawEntry => [⟨"payload", none⟩]
  | .onlyFromDict => [⟨"data", none⟩]
  | .loggingConfig => [⟨"level", some (.text "INFO")⟩, ⟨"file", some .null⟩]
  | .storageConfig => [⟨"base_dir", some .null⟩]
  | .runtimeConfig =>
    [⟨"logging", some standardLogging⟩, ⟨"storage", some standardStorage⟩,
     ⟨"debug", some (.bool false)⟩, ⟨"extra", some (.dict [])⟩]
  | .brokenEntry | .indexEntry | .onlyToDict | .opaqueEntry => []

def enumerate : List Text → Text
  | [] => []
  | [a] => a
  | [a, b] => a ++ " and " ++ b
  | names => Text.joinWith ", " names.dropLast ++ ", and " ++ names.getLastD []

/-- The wording for arguments that have to be given. -/
def missingText (function : Text) (names : List Text) : Text :=
  function ++ " missing " ++ Numeral.ofNat names.length ++ " required positional argument" ++
    (if names.length = 1 then [] else "s" : Text) ++ ": " ++
    enumerate (names.map fun n => "'" ++ n ++ "'")

/-- The wording for an argument that nobody asked for. -/
def unexpectedText (function name : Text) : Text :=
  function ++ " got an unexpected keyword argument '" ++ name ++ "'"

/-- The values of parameters from named arguments, in the order of the parameters. -/
def bindArguments (function : Text) (parameters : List Parameter) (arguments : List (Text × Value)) :
    Except Text (List (Text × Value)) :=
  match arguments.find? fun a => !(parameters.any fun p => p.name = a.1) with
  | some a => .error (unexpectedText function a.1)
  | none =>
    -- An argument that nobody asked for is told before one that is missing.
    let missing := parameters.filter fun p =>
      p.default?.isNone && !(arguments.any fun a => a.1 = p.name)
    if !missing.isEmpty then .error (missingText function (missing.map (·.name)))
    else .ok (parameters.map fun p =>
      (p.name, ((Value.field? p.name arguments.reverse) <|> p.default?).getD .null))

/-- An entry of named arguments. The section on logging takes a level in letters of either case. -/
def make (type : EntryType) (arguments : List (Text × Value)) : Except Fault Value :=
  if type.parameters.isEmpty && !arguments.isEmpty then
    .error (.plain .type (type.name ++ "() takes no arguments"))
  else match bindArguments (type.name ++ ".__init__()") type.parameters arguments with
    | .error message => .error (.plain .type message)
    | .ok fields =>
      match type with
      -- The level is the only argument that is looked into; all others are kept as they are.
      | .loggingConfig =>
        match Config.readLevel ((Value.field? "level" fields).getD .null) with
        | .error fault => .error fault.toFault
        | .ok level =>
          .ok (.entry type (fields.map fun f =>
            if f.1 = Text.ofString "level" then (f.1, .text level.name) else f))
      | _ => .ok (.entry type fields)

/-! ## Entries as dictionaries -/

/-- A field of a value that is expected to be an entry. -/
def part (name : Text) (v : Value) : Except Fault Value :=
  match v with
  | .entry t fields =>
    match Value.field? name fields with
    | some w => .ok w
    | none => .error (.plain .property ("'" ++ t.name ++ "' object has no attribute '" ++ name ++ "'"))
  | _ =>
    .error (.plain .property ("'" ++ v.qualifiedTypeName ++ "' object has no attribute '" ++ name ++ "'"))

/-- What an entry turns into: a dictionary, if its type keeps to the contract. -/
def toDict (type : EntryType) (fields : List (Text × Value)) : Except Fault Value :=
  let field (name : Text) : Value := (Value.field? name fields).getD .null
  match type with
  | .ledgerEntry =>
    match (field "tags").items? with
    | none => .error (.plain .type (field "tags").notIterableText)
    | some tags =>
      .ok (.ofFields [("key", field "key"), ("version", field "version"), ("tags", .list tags)])
  | .rawEntry => .ok (field "payload")
  | .brokenEntry => .error (.plain .runtime "state not loaded")
  | .indexEntry => .ok (.ofFields [("items", .list [])])
  | .runtimeConfig => do
    -- Parts of sections are read field by field, so a section of another type fails at the first field it
    -- lacks.
    let level ← part "level" (field "logging")
    let file ← part "file" (field "logging")
    let baseDir ← part "base_dir" (field "storage")
    pure (.ofFields
      [("logging", .ofFields [("level", level), ("file", file)]),
       ("storage", .ofFields [("base_dir", baseDir)]), ("debug", field "debug"), ("extra", field "extra")])
  | _ => .ok (.dict [])

def firstItem (v : Value) : Except Fault Value :=
  match v with
  | .list [] => .error (.plain .index "list index out of range")
  | .list (first :: _) => .ok first
  | .text [] => .error (.plain .index "string index out of range")
  | .text (c :: _) => .ok (.text [c])
  | .dict _ => .error (.plain .key "0")
  | _ => .error (.plain .type ("'" ++ v.qualifiedTypeName ++ "' object is not subscriptable"))

def ofDict (type : EntryType) (entries : List (Value × Value)) : Except Fault Value :=
  let required (key : Text) : Except Fault Value :=
    match Value.lookup? key entries with
    | some v => .ok v
    | none => .error (.plain .key key.quoted)
  match type with
  | .ledgerEntry => do
    let key ← required "key"
    let version ← required "version"
    let tags := (Value.lookup? "tags" entries).getD (.list [])
    match tags.items? with
    | none => .error (.plain .type tags.notIterableText)
    | some items => .ok (.entry .ledgerEntry [("key", key), ("version", version), ("tags", .list items)])
  | .rawEntry => (required "payload").map fun v => .entry .rawEntry [("payload", v)]
  | .brokenEntry => .error (.plain .runtime "cannot restore")
  | .indexEntry => do firstItem (← required "items")
  | .onlyFromDict => .ok (.entry .onlyFromDict [("data", .dict entries)])
  | .runtimeConfig =>
    match Config.ofValue (.dict entries) with
    | .ok c => .ok c.toValue
    | .error fault => .error fault.toFault
  | _ => .ok (.entry type [])

end EntryType

end CanonStore
