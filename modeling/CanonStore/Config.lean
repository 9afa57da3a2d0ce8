import CanonStore.Fault
import CanonStore.Environment
import CanonStore.Log
import CanonStore.PathName
import CanonStore.Text.UpperCase
import CanonStore.Value.Copy

/-!
# Configurations

A configuration says how much is logged and where, and where relative paths lie. `Config.ofValue`
reads one from a dictionary, in which every part may be missing; `Config.overlay` lets the environment
override single settings; `Config.toDict` is the dictionary of a configuration.
-/

namespace CanonStore

/-- A configuration. Files and directories are values because a dictionary may put anything there. -/
structure Config where
  level : LogLevel
  /-- The file that log lines go to besides the error output. -/
  logFile : Value
  /-- The directory that relative paths are taken from. -/
  baseDir : Value
  debug : Value
  extra : Value

/-- What is wrong with a section of a configuration. -/
inductive SectionFault where
  /-- The section is no dictionary but a value of another type. -/
  | notMapping (type : Text)
  /-- A key is no text. -/
  | keyNotText
  /-- A key that the section does not know. -/
  | unknownKey (key : Text)
  /-- The key that the record is itself known by while it is built. -/
  | ownKey (key : Text)
deriving DecidableEq

/-- Why a value is no configuration. -/
inductive ConfigFault where
  /-- The value is no dictionary but of another type. -/
  | notMapping (type : Text)
  /-- The value is a type, of the given name. -/
  | typeNotMapping (name : Text)
  /-- A fault in the section that is read into a record of the given name. -/
  | badSection (record : Text) (fault : SectionFault)
  /-- The level is none of the known ones. -/
  | unknownLevel (shown : Text)
  /-- The level cannot even be shown. -/
  | unshownLevel (fault : DisplayFault)
  /-- A setting cannot be copied. -/
  | uncopied (fault : CopyFault)
deriving DecidableEq

namespace ConfigFault

def sectionText (record : Text) : SectionFault → Text
  | .notMapping type =>
    "chainutil.config.runtime." ++ record ++ "() argument after ** must be a mapping, not " ++ type
  | .keyNotText => "keywords must be strings"
  | .unknownKey key => record ++ ".__init__() got an unexpected keyword argument '" ++ key ++ "'"
  | .ownKey key => record ++ ".__init__() got multiple values for argument '" ++ key ++ "'"

def toFault : ConfigFault → Fault
  | .notMapping type => .plain .property ("'" ++ type ++ "' object has no attribute 'get'")
  | .typeNotMapping name => .plain .property ("type object '" ++ name ++ "' has no attribute 'get'")
  | .badSection record fault =>
    .config ("Invalid configuration: " ++ sectionText record fault) []
      (some (.plain .type (sectionText record fault)))
  | .unknownLevel shown =>
    .config ("Invalid log level: " ++ shown)
      [("allowed", .list (LogLevel.all.map fun l => .text l.name))] none
  | .unshownLevel fault => fault.toFault
  | .uncopied .memoryView => .plain .type "cannot pickle 'memoryview' object"
  | .uncopied .tooDeep => .tooDeep

end ConfigFault

namespace Config

/-- What is wrong with a key that stands for no setting of its section. -/
def keyFault (k : Value) : SectionFault :=
  let shown := k.shown?.getD []
  if k.text? = some ("self" : Text) then .ownKey shown else .unknownKey shown

/-- The settings of a section by key. A value that counts as false is an empty section. -/
def sectionEntries (record : Text) (keys : List Text) (v : Value) :
    Except ConfigFault (List (Value × Value)) :=
  if !v.isTrue then .ok []
  else match v.dictEntries? with
    | none => .error (.badSection record (.notMapping v.qualifiedTypeName))
    | some entries =>
      -- All keys are looked at for being texts before any is looked up.
      if entries.any fun e => e.1.text?.isNone then .error (.badSection record .keyNotText)
      else match entries.find? fun e => !(e.1.text?.any keys.contains) with
        | some e => .error (.badSection record (keyFault e.1))
        | none => .ok entries

/-- The level that a value names, in letters of either case. -/
def readLevel (v : Value) : Except ConfigFault LogLevel :=
  match v.shown with
  | .error fault => .error (.unshownLevel fault)
  | .ok shown =>
    match LogLevel.ofName? shown.toUpper with
    | some level => .ok level
    | none => .error (.unknownLevel shown.toUpper)

/-- The name of the record that holds the settings of logging. -/
def loggingName : Text := "LoggingConfig"

/-- The name of the record that holds the settings of storage. -/
def storageName : Text := "StorageConfig"

/-- The level and the file of a section on logging. -/
def readLogging (v : Value) : Except ConfigFault (LogLevel × Value) := do
  let entries ← sectionEntries loggingName ["level", "file"] v
  let level ←
    match Value.lookup? "level" entries with
    | none => pure LogLevel.info
    | some l => readLevel l
  pure (level, (Value.lookup? "file" entries).getD .null)

/-- The base directory of a section on storage. -/
def readStorage (v : Value) : Except ConfigFault Value := do
  let entries ← sectionEntries storageName ["base_dir"] v
  pure ((Value.lookup? "base_dir" entries).getD .null)

def get (key : Text) (entries : List (Value × Value)) : Value := (Value.lookup? key entries).getD .null

/-- The configuration that a dictionary describes. -/
def ofValue (data : Value) : Except ConfigFault Config :=
  -- A type has no settings either, but the wording is another one.
  match data, data.dictEntries? with
  | .foreign .ledgerEntryType, _ => .error (.typeNotMapping EntryType.ledgerEntry.name)
  | _, none => .error (.notMapping data.qualifiedTypeName)
  | _, some entries => do
    let (level, file) ← readLogging (get "logging" entries)
    let baseDir ← readStorage (get "storage" entries)
    let extra := get "extra" entries
    pure ⟨level, file, baseDir, .bool (get "debug" entries).isTrue,
      if extra.isTrue then extra else .dict []⟩

/-- The configuration that an empty dictionary describes. -/
def standard : Config := ⟨.info, .null, .null, .bool false, .dict []⟩

def loggingDict (c : Config) : Value := .ofFields [("level", .text c.level.name), ("file", c.logFile)]

def toDict (c : Config) : Value :=
  .ofFields
    [("logging", c.loggingDict), ("storage", .ofFields [("base_dir", c.baseDir)]),
     ("debug", c.debug), ("extra", c.extra)]

def toValue (c : Config) : Value :=
  .entry .runtimeConfig
    [("logging", .entry .loggingConfig [("level", .text c.level.name), ("file", c.logFile)]),
     ("storage", .entry .storageConfig [("base_dir", c.baseDir)]),
     ("debug", c.debug), ("extra", c.extra)]

/-! ## The environment -/

/-- The settings of the environment as a dictionary of a configuration. -/
def overrides (env : Environment) : Value :=
  let setting (key : Text) (t : Option Text) : List (Text × Value) :=
    match t with
    | none => []
    | some t => [(key, .text t)]
  let nonEmpty (key : Text) (settings : List (Text × Value)) : List (Text × Value) :=
    if settings.isEmpty then [] else [(key, .ofFields settings)]
  .ofFields
    (nonEmpty "logging" (setting "level" env.logLevel ++ setting "file" env.logFile) ++
      nonEmpty "storage" (setting "base_dir" env.storageDir) ++
      (match env.debug with
       | none => []
       | some t => [("debug", .bool (Environment.isDebugWord t))]))

/-- The configuration of the environment alone. -/
def ofEnvironment (env : Environment) : Except ConfigFault Config := ofValue (overrides env)

/-- The first reason why a configuration cannot be copied. -/
def copyFault? (c : Config) : Option CopyFault :=
  c.logFile.copyFault? <|> c.baseDir.copyFault? <|> c.debug.copyFault? <|> c.extra.copyFault?

/-- A copy of the configuration with the settings of the environment in place of its own. -/
def override (c : Config) (env : Environment) : Except ConfigFault Config :=
  -- The copy is made first, before the level is read.
  match c.copyFault? with
  | some fault => .error (.uncopied fault)
  | none => do
    let level ←
      match env.logLevel with
      | none => pure c.level
      | some t => readLevel (.text t)
    pure
      { c with
        level
        logFile := (env.logFile.map Value.text).getD c.logFile
        baseDir := (env.storageDir.map Value.text).getD c.baseDir
        debug := (env.debug.map fun t => .bool (Environment.isDebugWord t)).getD c.debug }

/-- What laying an environment over a configuration gives. -/
inductive Overlay where
  /-- The environment sets nothing: the configuration itself. -/
  | same (c : Config)
  /-- A copy with other settings. -/
  | copy (c : Config)

def Overlay.config : Overlay → Config
  | .same c | .copy c => c

def overlay (c : Config) (env : Environment) : Except ConfigFault Overlay :=
  if env = .empty then .ok (.same c) else (c.override env).map .copy

/-- A configuration laid over another still holds its very extra settings. -/
def Overlay.sharesExtra : Overlay → Bool
  | .same _ => true
  | .copy c => c.extra.isShared

/-! ## Paths -/

/-- The base directory cannot be used as a path: it is a value of the given type. -/
inductive BaseDirFault where
  | notPath (type : Text)
  | octets

def BaseDirFault.message : BaseDirFault → Text
  | .notPath type => "expected str, bytes or os.PathLike object, not " ++ type
  | .octets =>
    "argument should be a str object or an os.PathLike object returning str, not <class 'bytes'>"

def BaseDirFault.toFault (f : BaseDirFault) : Fault := .plain .type f.message

/-- The path that a text means: a relative one lies in the base directory. -/
def resolveIn (baseDir : Value) (path : Text) : Except BaseDirFault PathName :=
  let p := PathName.ofText path
  if p.isAbsolute then .ok p
  else match baseDir with
    | .null => .ok p
    | .text base => .ok ((PathName.ofText base).join p)
    -- The member is written as its label, not as its text.
    | .textMember m _ => .ok ((PathName.ofText m.label).join p)
    | .bytes _ => .error .octets
    | v => .error (.notPath v.qualifiedTypeName)

/-- The path that a text means under a configuration. -/
def resolve (c : Config) (path : Text) : Except BaseDirFault PathName := resolveIn c.baseDir path

/-! ## Text -/

def template : Text :=
  "# chainutil configuration\n" ++
  "logging:\n" ++
  "  level: INFO\n" ++
  "  file: null\n" ++
  "storage:\n" ++
  "  # Relative paths given to the CLI are resolved against this directory.\n" ++
  "  base_dir: null\n" ++
  "debug: false\n"

end Config

end CanonStore
