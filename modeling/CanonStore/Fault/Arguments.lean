import CanonStore.Entry

/-!
# Faults from arguments

Faults that a caller makes: a plain one of a kind and its arguments, or a report of a kind from named
arguments, a path and a cause.
-/

namespace CanonStore

namespace FaultKind

def named : List FaultKind :=
  [.value, .type, .key, .index, .property, .runtime, .overflow, .notImplemented, .interrupted,
   .system .other, .system .notFound, .system .denied, .system .alreadyExists, .system .notDirectory,
   .system .isDirectory, .system .interrupted, .system .wouldBlock, .system .noChild, .system .noProcess,
   .system .brokenPipe, .system .connection, .system .connectionAborted, .system .connectionRefused,
   .system .connectionReset, .system .timedOut]

def ofName (name : Text) : FaultKind :=
  if name = Text.ofString "IOError" || name = Text.ofString "EnvironmentError" then .system .other
  else (named.find? fun k => k.name = name).getD (.other name)

end FaultKind

namespace Fault

/-- A fault of a kind with a wording, if that can be shown. -/
def ofWording (kind : FaultKind) : Except DisplayFault Text → Fault
  | .ok message => .plain kind message
  | .error why => .unshown kind why

/-- The files that the arguments after number and text name: the first, unless it is null, and the
third, which is named only together with the first. -/
def filesText : List Value → Except DisplayFault Text
  | [] | .null :: _ => .ok []
  -- The argument between the two files is passed over.
  | first :: _ :: second :: _ => do
    let source ← first.display
    match second with
    | .null => pure (": " ++ source)
    | _ => pure (": " ++ source ++ " -> " ++ (← second.display))
  | first :: _ => first.display.map fun source => ": " ++ source

/-- The wording of a failure of the system: its number, its text, and the files that are concerned.
For a refusal to wait, an integer in place of the file is a count of octets and not shown. -/
def systemText (kind : SystemKind) (number text : Value) (rest : List Value) : Except DisplayFault Text := do
  let number ← number.shown
  let text ← text.shown
  let files ←
    match kind, rest with
    | .wouldBlock, [.int _] => pure []
    | _, _ => filesText rest
  pure ("[Errno " ++ number ++ "] " ++ text ++ files)

/-- The most arguments of a failure of the system that are told apart. -/
def maxSystemArguments : Nat := 5

/-- A fault of a kind with its arguments. A failure of the system with a number and a text takes the
kind of its number; otherwise a single argument is the wording, a missing key as a literal, and
several are shown together. -/
def ofArguments (kind : FaultKind) (arguments : List Value) : Fault :=
  let together : Fault := ofWording kind (Value.tuple arguments).display
  match kind, arguments with
  | .system own, number :: text :: rest =>
    if maxSystemArguments < arguments.length then together
    else
      let kind :=
        -- Only the general kind is refined by the number; a kind that was named stays.
        match own, number.number? with
        | .other, some (.inr n) => SystemKind.ofNumber n
        | _, _ => own
      ofWording (.system kind) (systemText kind number text rest)
  | kind, [] => .plain kind []
  -- A missing key is shown as a literal, so that the empty text can be seen.
  | .key, [v] => ofWording .key v.display
  | kind, [v] => ofWording kind v.shown
  | _, _ => together

end Fault

/-- What a caller gives to make a report. -/
structure ReportArguments where
  named : List (Text × Value)
  path : Option Text
  cause : Option Fault

namespace ReportKind

def parameterKind : ReportKind → ReportKind
  | .fileCreate | .fileOpen => .storage
  | k => k

/-- The names of the parameters of a kind, the one that has to be given first. -/
def parameters (k : ReportKind) : List Text :=
  match k.parameterKind with
  | .chain => ["message", "code", "details", "retryable", "fatal"]
  | .canonicalization | .config => ["message", "details"]
  | .storage => ["path", "cause", "message", "details"]
  | .encode | .decode => ["message", "path", "cause", "details"]
  | _ => ["message", "cause", "details"]

def all : List ReportKind :=
  [.chain, .canonicalization, .storage, .fileCreate, .fileOpen, .encode, .decode, .randomSource,
   .timestamp, .config]

def ofName? (name : Text) : Option ReportKind := all.find? fun k => k.name = name

/-- The details that a caller gives. Kinds that add details themselves want a dictionary or pairs. -/
def readDetails (k : ReportKind) (a : ReportArguments) (details : Value) : Except Fault Value :=
  let given := if details.isTrue then details else .dict []
  match k with
  -- These kinds add nothing of their own, so whatever was given is kept.
  | .chain | .canonicalization | .config => .ok given
  | _ =>
    match given.entries with
    | .ok es => do
      -- The details tell the wording of the cause.
      let _ ← a.cause.elim (.ok []) Fault.wording
      pure (.dict (Fault.complete a.path a.cause es))
    | .error fault =>
      let kind : FaultKind :=
        match fault with
        | .wrongLength _ _ => .value
        | _ => .type
      .error (.plain kind fault.message)

def given (a : ReportArguments) : List Text :=
  let path : List Text := if a.path.isSome then ["path"] else []
  let cause : List Text := if a.cause.isSome then ["cause"] else []
  a.named.map (·.1) ++ path ++ cause

def make (k : ReportKind) (a : ReportArguments) : Except Fault Fault :=
  let function : Text := k.parameterKind.name ++ ".__init__()"
  match (given a).find? fun n => !k.parameters.contains n with
  | some name => .error (.plain .type (EntryType.unexpectedText function name))
  -- Only the first parameter has to be given; it is missed after an unknown name is refused.
  | none =>
    match k.parameters.head? with
    | none => .error (.plain .type function)
    | some first =>
      if !(given a).contains first then
        .error (.plain .type (EntryType.missingText function [first]))
      else
        let argument (name : Text) (default : Value) : Value :=
          (Value.field? name a.named.reverse).getD default
        let path := a.path.getD []
        let message : Except Fault Value :=
          match k.parameterKind, argument "message" .null with
          -- Without a message the wording is made from the file and the cause.
          | .storage, .null =>
            (a.cause.elim (.ok "None") Fault.wording).map fun cause => .text (Fault.fileMessage k path cause)
          | _, m => .ok m
        do
          let message ← message
          let details ← readDetails k a (argument "details" .null)
          pure (.report k
            ⟨argument "code" (.text k.code), message, details, argument "retryable" (.bool false),
              argument "fatal" (.bool k.isFatal), a.path⟩ none)

end ReportKind

end CanonStore
