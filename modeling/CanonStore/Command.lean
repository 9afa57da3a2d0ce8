import CanonStore.CommandLine.Reading
import CanonStore.Log

/-!
# Commands

What the program can be asked to do, and how it is asked on a command line. `Invocation.read` reads the
arguments of the program.
-/

namespace CanonStore

/-- What a digest is made of. -/
inductive DigestSource where
  | file (path : Text)
  | text (t : Text)
deriving DecidableEq

/-- Octets as they are written on a command line. -/
inductive Payload where
  | hex (t : Text)
  | base64 (t : Text)
deriving DecidableEq

/-- What the program can be asked to do. -/
inductive Command where
  | hash (source : DigestSource) (hex : Bool)
  | identifiers (count : Int)
  | now (asJson : Bool)
  | blobHelp
  | blobWrite (path : Text) (payload : Payload)
  | blobRead (path : Text) (hex : Bool)
  | configInit (path : Text)
  | configShow
  | configUsage
deriving DecidableEq

/-- What the program is asked to do, and under which settings. -/
structure Invocation where
  configPath : Option Text
  level : Option LogLevel
  command : Option Command
deriving DecidableEq

open CommandLine

namespace Command

/-! ## Grammars of the commands -/

/-- A digest to be made. -/
structure HashDraft where
  source : Option DigestSource
  hex : Bool

/-- Chooses the source of a digest; a file and a text exclude each other. -/
def HashDraft.choose (d : HashDraft) (source : DigestSource) : Except Stop HashDraft :=
  match d.source, source with
  | some (.file _), .text _ | some (.text _), .file _ => .error .misuse
  | _, _ => .ok { d with source := some source }

def hashGrammar : Grammar HashDraft Command where
  blank := ⟨none, false⟩
  options :=
    [.help, ⟨["--text"], .withValue fun d t => d.choose (.text t)⟩,
     ⟨["--hex"], .alone fun d => .ok { d with hex := true }⟩]
  operand := .atMostOne fun d path => d.choose (.file path)
  finish d :=
    match d.source with
    | some source => .ok (.hash source d.hex)
    | none => .error .misuse

def identifiersGrammar : Grammar Int Command where
  blank := 1
  options :=
    [.help, ⟨["--count", "-n"], .withValue fun _ t => t.readInt?.elim (.error .misuse) .ok⟩]
  operand := .none
  finish count := .ok (.identifiers count)

def nowGrammar : Grammar Bool Command where
  blank := false
  options := [.help, ⟨["--json"], .alone fun _ => .ok true⟩]
  operand := .none
  finish asJson := .ok (.now asJson)

/-- Octets to be written. -/
structure WriteDraft where
  path : Option Text
  payload : Option Payload

/-- Chooses the octets; the two ways to write them exclude each other. -/
def WriteDraft.choose (d : WriteDraft) (payload : Payload) : Except Stop WriteDraft :=
  match d.payload, payload with
  | some (.hex _), .base64 _ | some (.base64 _), .hex _ => .error .misuse
  | _, _ => .ok { d with payload := some payload }

def blobWriteGrammar : Grammar WriteDraft Command where
  blank := ⟨none, none⟩
  options :=
    [.help, ⟨["--hex"], .withValue fun d t => d.choose (.hex t)⟩,
     ⟨["--b64"], .withValue fun d t => d.choose (.base64 t)⟩]
  operand := .one fun d path => .ok { d with path := some path }
  finish d :=
    match d.path, d.payload with
    | some path, some payload => .ok (.blobWrite path payload)
    | _, _ => .error .misuse

/-- A file to be read. -/
structure ReadDraft where
  path : Option Text
  hex : Bool

def blobReadGrammar : Grammar ReadDraft Command where
  blank := ⟨none, false⟩
  options := [.help, ⟨["--hex"], .alone fun d => .ok { d with hex := true }⟩]
  operand := .one fun d path => .ok { d with path := some path }
  finish d :=
    match d.path with
    | some path => .ok (.blobRead path d.hex)
    | none => .error .misuse

/-- The result of a command of a command, with what it leaves over. -/
def nested {σ : Type} (g : Grammar σ Command) (arguments : List Text) :
    Except Stop (Option Command × List Text) :=
  (g.readSome arguments).map fun r => (some r.1, r.2)

def blobGrammar : Grammar (Option Command) Command where
  blank := none
  options := [.help]
  operand := .command fun _ name arguments =>
    if name = Text.ofString "write" then nested blobWriteGrammar arguments
    else if name = Text.ofString "read" then nested blobReadGrammar arguments
    else .error .misuse
  finish c := .ok (c.getD .blobHelp)

/-- What is to be done with a configuration. -/
structure ConfigDraft where
  create : Bool
  display : Bool
  path : Text

/-- The grammar of `config`. Creating a file comes before showing the configuration. -/
def configGrammar : Grammar ConfigDraft Command where
  blank := ⟨false, false, "chainutil.yaml"⟩
  options :=
    [.help, ⟨["--init"], .alone fun d => .ok { d with create := true }⟩,
     ⟨["--show"], .alone fun d => .ok { d with display := true }⟩,
     ⟨["--path"], .withValue fun d path => .ok { d with path }⟩]
  operand := .none
  finish d := .ok (if d.create then .configInit d.path else if d.display then .configShow else .configUsage)

end Command

namespace Invocation

/-- The level of a name; the gravest cannot be chosen. -/
def readLevel (name : Text) : Except Stop LogLevel :=
  match LogLevel.ofName? name with
  | some .critical | none => .error .misuse
  | some level => .ok level

/-- The command of a name, with what it leaves over. -/
def readCommand (name : Text) (arguments : List Text) : Except Stop (Option Command × List Text) :=
  if name = Text.ofString "hash" then Command.nested Command.hashGrammar arguments
  else if name = Text.ofString "uuid" then Command.nested Command.identifiersGrammar arguments
  else if name = Text.ofString "now" then Command.nested Command.nowGrammar arguments
  else if name = Text.ofString "blob" then Command.nested Command.blobGrammar arguments
  else if name = Text.ofString "config" then Command.nested Command.configGrammar arguments
  else .error .misuse

def grammar : Grammar Invocation Invocation where
  blank := ⟨none, none, none⟩
  options :=
    [.help, ⟨["--version"], .alone fun _ => .error .version⟩,
     ⟨["--config", "-c"], .withValue fun i path => .ok { i with configPath := some path }⟩,
     ⟨["--log-level"], .withValue fun i name =>
       (readLevel name).map fun level => { i with level := some level }⟩]
  operand := .command fun i name arguments =>
    (readCommand name arguments).map fun r => ({ i with command := r.1 }, r.2)
  finish := .ok

def read (arguments : List Text) : Except Stop Invocation := grammar.read arguments

end Invocation

end CanonStore
