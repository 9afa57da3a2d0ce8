import CanonStore.Digest
import CanonStore.Json.OfValue
import CanonStore.Program

/-!
# Performing commands

Each command under a configuration, as a function from the world to an outcome. Relative paths of
`hash` and `blob` lie in the base directory of the configuration; the path of `config` does not.
-/

namespace CanonStore

namespace Payload

/-- The octets that a payload spells, or the wording of what is wrong with it. -/
def octets : Payload → Except Text Bytes
  -- The mark may be missing here, and blanks may stand between the digits.
  | .hex t => (Hex.decode ((Text.dropPrefix? "0x" t).getD t)).mapError Hex.badDigitText
  | .base64 t => (Base64.decode t).mapError Base64.Fault.message

end Payload

namespace Program

def line (t : Text) : Text := t ++ "\n"

/-! ## Digests, identifiers, time -/

/-- The part of the program that makes digests. -/
def digestSource : Text := "chainutil_cli.commands.digest"

def printDigest (hex : Bool) (w : World) (octets : Bytes) : Outcome :=
  let d := Digest.ofBytes octets
  { Outcome.printed w (line (if hex then Hex.prefixed d else Base64.encode d)) with
    log := [⟨.debug, digestSource, "Hashed " ++ Store.octetCount octets⟩] }

/-- Goes on with the path that a text means under a configuration. -/
def withPath (c : Config) (w : World) (path : Text) (next : Text → Outcome) : Outcome :=
  match c.resolve path with
  | .error fault => .failed w fault.toFault
  | .ok p => next p.text

def hash (c : Config) (w : World) (source : DigestSource) (hex : Bool) : Outcome :=
  match source with
  | .text t =>
    match Utf8.encode t with
    | .error fault => .failed w (Document.surrogateFault fault)
    | .ok octets => printDigest hex w octets
  | .file path => withPath c w path fun p => .after w (Store.load w.files p) (printDigest hex)

/-- The part of the program that makes identifiers. -/
def identifierSource : Text := "chainutil.crypto.identifiers"

/-- Prints identifiers, one after the other, as long as there are random octets. -/
def printIdentifiers : Nat → World → Outcome
  | 0, w => .printed w []
  | count + 1, w =>
    let (made, entropy) := Identifier.draw Entropy.source w.entropy
    let w : World := { w with entropy }
    match made with
    | .error fault =>
      -- Lines printed before this one stay printed; only the rest of the run fails.
      let log := fault.logText?.toList.map fun message => ⟨.critical, identifierSource, message⟩
      { Outcome.failed w fault.toFault with log }
    | .ok t =>
      let o := printIdentifiers count w
      { o with out := line t ++ o.out }

def identifiers (w : World) (count : Int) : Outcome :=
  -- The bound is checked before anything is drawn.
  if count < 1 then .refused w "--count must be at least 1" else printIdentifiers count.toNat w

def now (w : World) (asJson : Bool) : Outcome :=
  match Timestamp.ofUnixNanos? w.now with
  | .error problems => .failed w (.invalid problems)
  | .ok t =>
    if asJson then
      .printed w (line ("\x7b\"seconds\": " ++ Numeral.ofInt t.seconds ++ ", \"nanos\": " ++
        Numeral.ofNat t.nanos ++ "\x7d"))
    else match t.text with
      | .error fault => .failed w fault.toFault
      | .ok text => .printed w (line text)

/-! ## Files of octets -/

/-- The part of the program that reads and writes files of octets. -/
def blobSource : Text := "chainutil_cli.commands.blob"

/-- Writes octets to a file. A bad payload is refused before any file is touched. -/
def blobWrite (c : Config) (w : World) (path : Text) (payload : Payload) : Outcome :=
  match payload.octets with
  | .error message => .refused w ("Invalid payload: " ++ message)
  | .ok octets =>
    withPath c w path fun p =>
      let message : Text := "Wrote " ++ Store.octetCount octets ++ " to " ++ p
      .after w (Store.save w.files p octets none) fun w _ =>
        { Outcome.printed w (line message) with log := [⟨.info, blobSource, message⟩] }

def blobRead (c : Config) (w : World) (path : Text) (hex : Bool) : Outcome :=
  withPath c w path fun p =>
    .after w (Store.load w.files p) fun w octets =>
      .printed w (line (if hex then Hex.encode octets else Base64.encode octets))

/-! ## Configurations -/

/-- The permissions that files of text ask for when they are created. -/
def textFileMode : Nat := 0o666

def writeText (fs : FileSystem) (path t : Text) : Except FileFault Unit × FileSystem :=
  match fs.openFile (.replace textFileMode) path with
  | .error fault => (.error fault, fs)
  | .ok (h, opened) => opened.writeAndClose h (Utf8.encodeAny t)

/-- Creates a configuration file to start from, unless there is something of the name. -/
def configInit (w : World) (path : Text) : Outcome :=
  let p := PathName.normalText path
  match w.files.hasPath p with
  | .error fault => .failed w fault.toFault
  -- Anything of the name counts, be it a file or a directory.
  | .ok true => .refused w ("Config file already exists: " ++ p)
  | .ok false =>
    match writeText w.files p Config.template with
    | (.error fault, files) => .failed { w with files } fault.toFault
    | (.ok (), files) =>
      .printed { w with files }
        (line ("Created configuration file: " ++ p) ++
          line "You can also use environment variables (CHAINUTIL_* prefix).")

def configShow (c : Config) (w : World) : Outcome :=
  match Json.ofValue c.toDict with
  | .error fault => .failed w fault.toFault
  | .ok j => .printed w (line j.writeIndented)

def configUsageText : Text :=
  line "Usage: chainutil config [--init|--show]" ++
  line "  --init  Create a template configuration file" ++
  line "  --show  Show current configuration"

def execute (wording : Wording) (c : Config) (w : World) : Command → Outcome
  | .hash source hex => hash c w source hex
  | .identifiers count => identifiers w count
  | .now asJson => now w asJson
  | .blobHelp => .printed w wording.help
  | .blobWrite path payload => blobWrite c w path payload
  | .blobRead path hex => blobRead c w path hex
  | .configInit path => configInit w path
  | .configShow => configShow c w
  | .configUsage => .printed w configUsageText

end Program

end CanonStore
