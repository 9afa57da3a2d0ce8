import CanonStore.Value.Items

/-!
# Faults

What can go wrong, as it is shown to a caller. Most faults are a kind and a wording. A *report* is a
fault with a code for programs, details, and two judgements: whether trying again may help and whether
the calling operation has to stop. A report may rest on another fault, its cause.
-/

namespace CanonStore

/-- Kinds of failures of the system underneath. -/
inductive SystemKind where
  | other
  | notFound
  | denied
  | alreadyExists
  | notDirectory
  | isDirectory
  | interrupted
  | wouldBlock
  | noChild
  | noProcess
  | brokenPipe
  | connection
  | connectionAborted
  | connectionRefused
  | connectionReset
  | timedOut
deriving DecidableEq

namespace SystemKind

def ofNumber (n : Int) : SystemKind :=
  if n = 2 then .notFound
  else if n = 1 || n = 13 then .denied
  else if n = 17 then .alreadyExists
  else if n = 20 then .notDirectory
  else if n = 21 then .isDirectory
  else if n = 4 then .interrupted
  else if n = 11 || n = 114 || n = 115 then .wouldBlock
  else if n = 10 then .noChild
  else if n = 3 then .noProcess
  else if n = 32 || n = 108 then .brokenPipe
  else if n = 103 then .connectionAborted
  else if n = 111 then .connectionRefused
  else if n = 104 then .connectionReset
  else if n = 110 then .timedOut
  else .other

def name : SystemKind → Text
  | .other => "OSError"
  | .notFound => "FileNotFoundError"
  | .denied => "PermissionError"
  | .alreadyExists => "FileExistsError"
  | .notDirectory => "NotADirectoryError"
  | .isDirectory => "IsADirectoryError"
  | .interrupted => "InterruptedError"
  | .wouldBlock => "BlockingIOError"
  | .noChild => "ChildProcessError"
  | .noProcess => "ProcessLookupError"
  | .brokenPipe => "BrokenPipeError"
  | .connection => "ConnectionError"
  | .connectionAborted => "ConnectionAbortedError"
  | .connectionRefused => "ConnectionRefusedError"
  | .connectionReset => "ConnectionResetError"
  | .timedOut => "TimeoutError"

end SystemKind

/-- The stage at which reading a markup document stops. -/
inductive MarkupStage where
  | character
  | token
  | event
  | node
  | value
deriving DecidableEq

/-- Kinds of faults that are no reports. -/
inductive FaultKind where
  | value
  | type
  | key
  | index
  | property
  | runtime
  | overflow
  | notImplemented
  | interrupted
  | jsonSyntax
  | textDecoding
  | textEncoding
  | dumping
  | system (kind : SystemKind)
  | markup (stage : MarkupStage)
  | other (name : Text)
deriving DecidableEq

def FaultKind.name : FaultKind → Text
  | .value => "ValueError"
  | .type => "TypeError"
  | .key => "KeyError"
  | .index => "IndexError"
  | .property => "AttributeError"
  | .runtime => "RuntimeError"
  | .overflow => "OverflowError"
  | .notImplemented => "NotImplementedError"
  | .interrupted => "KeyboardInterrupt"
  | .jsonSyntax => "JSONDecodeError"
  | .textDecoding => "UnicodeDecodeError"
  | .textEncoding => "UnicodeEncodeError"
  | .dumping => "PydanticSerializationError"
  | .system kind => kind.name
  | .markup .character => "ReaderError"
  | .markup .token => "ScannerError"
  | .markup .event => "ParserError"
  | .markup .node => "ComposerError"
  | .markup .value => "ConstructorError"
  | .other name => name

/-- The kinds of faults that a value has, as against those of a type or of the program. -/
def FaultKind.isOfValue : FaultKind → Bool
  | .value | .jsonSyntax | .textDecoding | .textEncoding | .dumping => true
  | _ => false

/-- What is wrong with one part of a record. -/
inductive ProblemKind where
  | missing
  | extraForbidden
  | invalidKey
  | recordType
  | frozen
  | noSuchField
  | jsonInvalid
  | textType
  | textUnicode
  | bytesType
  | bytesEncoding
  | intType
  | intParsing
  | intParsingSize
  | intFromFloat
  | finiteNumber
  | notAtMost
  | notBelow
  | notAtLeast
  | floatType
  | floatParsing
  | boolType
  | boolParsing
  | momentType
  | momentFromDateParsing
  | momentParsing
  | dictType
  | listType
  | choice
  | callableType
deriving DecidableEq

def ProblemKind.name : ProblemKind → Text
  | .missing => "missing"
  | .extraForbidden => "extra_forbidden"
  | .invalidKey => "invalid_key"
  | .recordType => "model_type"
  | .frozen => "frozen_instance"
  | .noSuchField => "no_such_attribute"
  | .jsonInvalid => "json_invalid"
  | .textType => "string_type"
  | .textUnicode => "string_unicode"
  | .bytesType => "bytes_type"
  | .bytesEncoding => "bytes_invalid_encoding"
  | .intType => "int_type"
  | .intParsing => "int_parsing"
  | .intParsingSize => "int_parsing_size"
  | .intFromFloat => "int_from_float"
  | .finiteNumber => "finite_number"
  | .notAtMost => "less_than_equal"
  | .notBelow => "less_than"
  | .notAtLeast => "greater_than_equal"
  | .floatType => "float_type"
  | .floatParsing => "float_parsing"
  | .boolType => "bool_type"
  | .boolParsing => "bool_parsing"
  | .momentType => "datetime_type"
  | .momentFromDateParsing => "datetime_from_date_parsing"
  | .momentParsing => "datetime_parsing"
  | .dictType => "dict_type"
  | .listType => "list_type"
  | .choice => "enum"
  | .callableType => "callable_type"

/-- A step from a record or a container to one of its parts. -/
inductive Step where
  | name (t : Text)
  | index (n : Int)
deriving DecidableEq

/-- A problem and the part that has it. -/
structure Problem where
  kind : ProblemKind
  location : List Step
deriving DecidableEq

/-- The problem as seen from one step further out. -/
def Problem.under (step : Step) (p : Problem) : Problem := { p with location := step :: p.location }

/-- Kinds of reports. -/
inductive ReportKind where
  | chain
  | canonicalization
  | storage
  | fileCreate
  | fileOpen
  | encode
  | decode
  | randomSource
  | timestamp
  | config
deriving DecidableEq

namespace ReportKind

def name : ReportKind → Text
  | .chain => "ChainException"
  | .canonicalization => "CanonicalizationException"
  | .storage => "PersistenceIOException"
  | .fileCreate => "FileCreateException"
  | .fileOpen => "FileOpenException"
  | .encode => "EncodeException"
  | .decode => "DecodeException"
  | .randomSource => "RandomSourceException"
  | .timestamp => "TimestampException"
  | .config => "ConfigException"

def code : ReportKind → Text
  | .chain => "CHAIN_ERROR"
  | .canonicalization => "CANONICALIZATION_ERROR"
  | .storage => "STORAGE_IO_ERROR"
  | .fileCreate => "STORAGE_CREATE_ERROR"
  | .fileOpen => "STORAGE_OPEN_ERROR"
  | .encode => "ENCODE_ERROR"
  | .decode => "DECODE_ERROR"
  | .randomSource => "RANDOM_SOURCE_UNAVAILABLE"
  | .timestamp => "TIMESTAMP_INVALID"
  | .config => "CONFIG_ERROR"

/-- The more general kind that a kind belongs to. -/
def parent? : ReportKind → Option ReportKind
  | .chain => none
  | .fileCreate | .fileOpen => some .storage
  | _ => some .chain

/-- The names of a kind and of all that it belongs to, the most general last. -/
def lineage (k : ReportKind) : List Text :=
  let own : List ReportKind :=
    match k.parent? with
    | none => [k]
    | some .chain => [k, .chain]
    | some p => [k, p, .chain]
  let general : List Text := ["Exception", "BaseException", "object"]
  own.map name ++ general

/-- A report of this kind stops the calling operation. -/
def isFatal : ReportKind → Bool
  | .randomSource => true
  | _ => false

end ReportKind

/-- What a report says. The parts are values because a caller may hand in any; the library itself puts
texts, a dictionary and truth values there. -/
structure Report where
  code : Value
  message : Value
  details : Value
  retryable : Value
  fatal : Value
  path : Option Text

/-- Something that went wrong. -/
inductive Fault where
  | plain (kind : FaultKind) (message : Text)
  /-- A fault of a kind, the wording of which cannot be shown. -/
  | unshown (kind : FaultKind) (why : DisplayFault)
  /-- A value or document is nested too deeply, or without end. -/
  | tooDeep
  /-- A record does not accept what it was given. -/
  | invalid (problems : List Problem)
  | report (kind : ReportKind) (content : Report) (cause : Option Fault)

/-- The fault of showing a value, for callers. -/
def DisplayFault.toFault : DisplayFault → Fault
  | .oversized => .plain .value Json.unwritableText
  | .tooDeep => .tooDeep

namespace Fault

def kindName : Fault → Text
  | .plain kind _ | .unshown kind _ => kind.name
  | .tooDeep => "RecursionError"
  | .invalid _ => "ValidationError"
  | .report kind _ _ => kind.name

def text : Fault → Text
  | .plain _ message => message
  | .unshown _ _ => []
  | .tooDeep => "<recursion>"
  | .invalid _ => "<validation>"
  | .report _ content _ => content.message.shown?.getD []

/-- The wording of a fault, or the fault that showing it ends in. -/
def wording : Fault → Except Fault Text
  | .unshown _ why => .error why.toFault
  | fault => .ok fault.text

/-- The kind of a fault that is neither a report nor a problem with a value. -/
def kind? : Fault → Option FaultKind
  | .plain kind _ | .unshown kind _ => some kind
  | _ => none

/-- The fault is one of a value, such as dumping and reading records are reported for. -/
def isOfValue : Fault → Bool
  | .plain kind _ | .unshown kind _ => kind.isOfValue
  | .invalid _ => true
  | _ => false

/-- The names of the faults that a fault rests on, the nearest first. -/
def causes : Fault → List Text
  | .report _ _ (some cause) => cause.kindName :: cause.causes
  | _ => []

/-- The problems of the first record fault among a fault and those that it rests on. -/
def problems? : Fault → Option (List Problem)
  | .invalid problems => some problems
  | .report _ _ (some cause) => cause.problems?
  | _ => none

def report? : Fault → Option (ReportKind × Report)
  | .report kind content _ => some (kind, content)
  | _ => none

def isFatal : Fault → Bool
  | .report _ content _ => content.fatal.isTrue
  | _ => false

def display? : Fault → Option Text
  | .report kind content _ => do
    let code ← content.code.display?
    let message ← content.message.display?
    pure (kind.name ++ "(code=" ++ code ++ ", message=" ++ message ++ ")")
  | _ => none

/-! ## Making reports -/

/-- Details completed by a path and by the wording and kind of a cause, which take the place of details
of the same name. -/
def complete (path : Option Text) (cause : Option Fault) (details : List (Value × Value)) :
    List (Value × Value) :=
  let withPath :=
    match path with
    | none => details
    | some p => Value.setEntry (.text "path") (.text p) details
  match cause with
  | none => withPath
  | some c =>
    Value.setEntry (.text "cause_type") (.text c.kindName)
      (Value.setEntry (.text "cause") (.text c.text) withPath)

/-- A report of a kind with its usual code and judgements. -/
def make (kind : ReportKind) (message : Text) (path : Option Text) (details : List (Value × Value))
    (cause : Option Fault) : Fault :=
  .report kind ⟨.text kind.code, .text message, .dict details, .bool false, .bool kind.isFatal, path⟩ cause

def fields (details : List (Text × Value)) : List (Value × Value) :=
  details.map fun d => (.text d.1, d.2)

def canonicalization (message : Text) (details : List (Text × Value)) (cause : Option Fault) : Fault :=
  make .canonicalization message none (fields details) cause

def config (message : Text) (details : List (Text × Value)) (cause : Option Fault) : Fault :=
  make .config message none (fields details) cause

/-- A report on a path and a cause, both of which also enter the details. -/
def located (kind : ReportKind) (message : Text) (path : Option Text) (cause : Option Fault)
    (details : List (Value × Value)) : Fault :=
  make kind message path (complete path cause details) cause

/-- What the file operations of a kind of reports try to do. -/
def action : ReportKind → Text
  | .fileCreate => "create"
  | .fileOpen => "load"
  | _ => "access"

def fileMessage (kind : ReportKind) (path cause : Text) : Text :=
  "Unable to " ++ action kind ++ " file " ++ path ++ ": " ++ cause

end Fault

end CanonStore
