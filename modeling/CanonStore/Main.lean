import CanonStore.Program.Run
import Std.Time.DateTime.Timestamp

/-!
# The command line program

Looks at the files that a run may touch, takes the environment, random octets and the clock, lets
`Program.run` do the work, writes back the files that changed, and prints.
-/

namespace CanonStore.Main

def pathOf (p : Place) : String := Text.toString ("/" ++ Text.joinWith "/" p)

/-- Takes over what stands at a place, if it is not yet known. -/
def observe (fs : FileSystem) (p : Place) : IO FileSystem := do
  if (fs.node? p).isSome then return fs
  try
    let found ← IO.FS.realPath (pathOf p)
    if ← found.isDir then return fs.put p (.directory 0o755)
    return fs.put p (.file (← IO.FS.readBinFile found).toList 0o644)
  catch _ => return fs

def observePath (fs : FileSystem) (path : Text) : IO FileSystem :=
  (Place.along (fs.start path) (FilePath.names path)).foldlM observe fs

def namedPaths (i : Invocation) : List Text :=
  i.configPath.toList.map PathName.normalText ++
    match i.command with
    | some (.configInit path) => [PathName.normalText path]
    | _ => []

/-- The paths that an invocation means under a configuration. -/
def meantPaths (fs : FileSystem) (c : Config) (i : Invocation) : List Text :=
  let resolved (path : Text) : List Text :=
    match c.resolve path with
    | .ok p => [p.text]
    | .error _ => []
  let log : List Text :=
    match c.logFile with
    | .text path => [Program.absolutePath fs path]
    | .bytes octets => [Program.absolutePath fs (FilePath.ofOctets octets)]
    | _ => []
  log ++
    match i.command with
    | some (.hash (.file path) _) | some (.blobWrite path _) | some (.blobRead path _) => resolved path
    | _ => []

def survey (w : World) (i : Invocation) : IO World := do
  let files ← (namedPaths i).foldlM observePath w.files
  let w : World := { w with files }
  match Program.loadConfig i.configPath w with
  | (.ok c, _) => return { w with files := ← (meantPaths files c i).foldlM observePath files }
  | (.error _, _) => return w

def writeBack (before : FileSystem) (e : Place × Node) : IO Unit :=
  match e.2 with
  | .file content _ =>
    if before.content? e.1 = some content then pure ()
    else IO.FS.writeBinFile (pathOf e.1) ⟨content.toArray⟩
  | _ => pure ()

/-- The variables of the environment that the program looks at. -/
def variableNames : List String :=
  ["CHAINUTIL_LOG_LEVEL", "CHAINUTIL_LOG_FILE", "CHAINUTIL_STORAGE_DIR", "CHAINUTIL_DEBUG"]

def environment : IO Environment := do
  let assignments ← variableNames.mapM fun name => do
    return (Text.ofString name, Text.ofString ((← IO.getEnv name).getD ""))
  return .ofVariables assignments

/-- How many random octets an invocation needs. -/
def entropyNeeded (i : Invocation) : Nat :=
  match i.command with
  | some (.identifiers count) => Identifier.size * count.toNat
  | _ => 0

def usageText : Text :=
  "usage: chainutil [-h] [--version] [--config CONFIG] [--log-level LEVEL] \x7bhash,uuid,now,blob,config\x7d ...\n"

def helpText : Text :=
  usageText ++
  "\n  hash [FILE | --text TEXT] [--hex]                  print a digest\n" ++
  "  uuid [--count COUNT]                               print random identifiers\n" ++
  "  now [--json]                                       print the time\n" ++
  "  blob write PATH (--hex HEX | --b64 B64)            write octets to a file\n" ++
  "  blob read PATH [--hex]                             print the octets of a file\n" ++
  "  config [--init | --show] [--path PATH]             create or show a configuration\n"

/-- The time of the clock as it stands in front of log lines. -/
def stampOf (nanos : Int) : Text :=
  let seconds := nanos.fdiv 1000000000
  match Timestamp.ofParts? seconds 0 with
  | none => []
  | some t =>
    match t.text with
    | .ok text => (text.take 19).map fun c => if c = 0x54 then 0x20 else c
    | .error _ => []

end CanonStore.Main

open CanonStore CanonStore.Main

def main (arguments : List String) : IO UInt32 := do
  let arguments := arguments.map Text.ofString
  let now : Int := (← Std.Time.Timestamp.now).toNanosecondsSinceUnixEpoch.val
  let current := FilePath.names (Text.ofString (← IO.currentDir).toString)
  let dry : Fault := .plain (.system .other) "entropy exhausted"
  let mut world : World := ⟨.fresh current 0o22, ← environment, ⟨[], dry⟩, now⟩
  if let .ok i := Invocation.read arguments then
    let octets ← IO.getRandomBytes (USize.ofNat (entropyNeeded i))
    world ← survey { world with entropy := ⟨octets.toList, dry⟩ } i
  let r := Program.run ⟨helpText, usageText, stampOf now, "Trace:"⟩ arguments world
  r.world.files.nodes.forM (writeBack world.files)
  (← IO.getStdout).putStr (Text.toString r.out)
  (← IO.getStderr).putStr (Text.toString r.err)
  match r.result with
  | .ok code => return UInt32.ofNat code.number
  | .error fault =>
    (← IO.getStderr).putStr (Text.toString (fault.kindName ++ ": " ++ fault.text ++ "\n"))
    return UInt32.ofNat ExitCode.failure.number
