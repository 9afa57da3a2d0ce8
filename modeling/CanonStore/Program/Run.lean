import CanonStore.Program.Command

/-!
# Runs of the program

A run reads the command line, then the configuration, opens the log, performs the command, and turns a
fault into a message and an exit code. Faults that are neither reports nor interrupts end the run as
they are.
-/

namespace CanonStore

/-- What a run leaves behind. -/
structure Run where
  /-- The exit code, or a fault that nothing in the program deals with. -/
  result : Except Fault ExitCode
  out : Text
  err : Text
  world : World

namespace Program

def versionText : Text := "chainutil 0.1.0\n"

/-! ## The configuration -/

def readConfigFile (fs : FileSystem) (path : Text) : Except Fault Config × FileSystem :=
  match fs.hasPath path with
  | .error fault => (.error fault.toFault, fs)
  | .ok false => (.error (Config.missingFile path), fs)
  | .ok true =>
    match fs.readFile path with
    | (.error fault, files) => (.error fault.toFault, files)
    | (.ok octets, files) => (Config.ofFile path octets, files)

/-- The configuration of a run: that of the environment, or that of a file with the environment laid
over it. -/
def loadConfig (path? : Option Text) (w : World) : Except Fault Config × FileSystem :=
  match path? with
  | none => ((Config.ofEnvironment w.env).mapError ConfigFault.toFault, w.files)
  | some path =>
    match readConfigFile w.files (PathName.normalText path) with
    | (.error fault, files) => (.error fault, files)
    -- Only a file can be overlaid: without one the environment is the whole configuration.
    | (.ok c, files) => (((c.overlay w.env).mapError ConfigFault.toFault).map Config.Overlay.config, files)

/-- The fault is a failure of the system or a report. -/
def isConfigFailure : Fault → Bool
  | .plain (.system _) _ | .report _ _ _ => true
  | _ => false

/-! ## The log -/

/-- The permissions that a log file asks for when it is created. -/
def logFileMode : Nat := 0o666

def absolutePath (fs : FileSystem) (path : Text) : Text :=
  ((PathName.ofText path).absolute fs.current).text

/-- Opens the log file that a configuration names, if it names one. -/
def openLog (v : Value) (fs : FileSystem) : Except Fault (Option Handle × FileSystem) :=
  let open_ (path : Text) : Except FileFault (Handle × FileSystem) :=
    fs.openFile (.extend logFileMode) (absolutePath fs path)
  let opened (r : Except FileFault (Handle × FileSystem)) : Except Fault (Option Handle × FileSystem) :=
    (r.mapError FileFault.toFault).map fun o => (some o.1, o.2)
  if !v.isTrue then .ok (none, fs)
  else match v with
    | .text path => opened (open_ path)
    | .bytes octets =>
      let path := FilePath.ofOctets octets
      let shown := Text.quotedBytes (FilePath.octets (absolutePath fs path))
      -- A path given as octets is shown as octets in a refusal.
      opened ((open_ path).mapError fun fault =>
        match fault with
        | .system refusal => .system { refusal with file := refusal.file.map fun _ => shown }
        | other => other)
    | v => .error (Config.BaseDirFault.notPath v.qualifiedTypeName).toFault

/-- The lines of the records that are grave enough. -/
def logLines (wording : Wording) (level : LogLevel) (records : List LogRecord) : List Text :=
  (records.filter fun r => level.rank ≤ r.level.rank).map fun r => wording.stamp ++ " " ++ r.text ++ "\n"

/-- Writes a line to an open file. What cannot be written of it is dropped. -/
def writeLine (h : Handle) (fs : FileSystem) (line : Text) : FileSystem :=
  match Utf8.encode line with
  | .error _ => fs
  | .ok octets => (fs.write h octets).2

/-- Writes lines to the log file and closes it. Nothing is said of a failure. -/
def finishLog (handle? : Option Handle) (lines : List Text) (fs : FileSystem) : FileSystem :=
  match handle? with
  | none => fs
  | some h => ((lines.foldl (writeLine h) fs).close h).2

/-! ## The run -/

/-- The message about a report: the bare message, or under debugging the trace. -/
def reportText (wording : Wording) (c : Config) (kind : ReportKind) (message : Text) : Text :=
  if c.debug.isTrue then
    wording.trace ++ "\nchainutil.schemas.errors." ++ kind.name ++ ": " ++ message ++ "\n"
  else "Error: " ++ message ++ "\n"

/-- How a run ends by the result of its command: with an exit code and a last message, or with a
fault. -/
def conclude (wording : Wording) (c : Config) : Except Fault ExitCode → Except Fault ExitCode × Text
  | .ok code => (.ok code, [])
  | .error fault =>
    match fault with
    | .plain .interrupted _ | .unshown .interrupted _ => (.ok .failure, "\nInterrupted.\n")
    | .report kind _ _ =>
      (.ok (if fault.isFatal then .fatal else .failure), reportText wording c kind fault.text)
    | _ => (.error fault, [])

/-- Performs a command under a configuration, with a log. -/
def perform (wording : Wording) (level? : Option LogLevel) (c : Config) (w : World) (command : Command) :
    Run :=
  match openLog c.logFile w.files with
  -- The log is opened outside of what deals with faults, so a refusal ends the run as it is.
  | .error fault => ⟨.error fault, [], [], w⟩
  | .ok (handle?, files) =>
    let o := execute wording c { w with files } command
    let lines := logLines wording (level?.getD c.level) o.log
    -- The log holds the lines of the command, not the last message.
    let (result, message) := conclude wording c o.result
    ⟨result, o.out, lines.flatten ++ o.err ++ message,
      { o.world with files := finishLog handle? lines o.world.files }⟩

/-- Reads the configuration and performs a command. -/
def performConfigured (wording : Wording) (i : Invocation) (w : World) (command : Command) : Run :=
  match loadConfig i.configPath w with
  | (.error fault, files) =>
    let w : World := { w with files }
    if isConfigFailure fault then
      ⟨.ok .failure, [], "Error loading configuration: " ++ fault.text ++ "\n", w⟩
    else ⟨.error fault, [], [], w⟩
  | (.ok c, files) => perform wording i.level c { w with files } command

def run (wording : Wording) (arguments : List Text) (w : World) : Run :=
  match Invocation.read arguments with
  | .error .help => ⟨.ok .success, wording.help, [], w⟩
  | .error .version => ⟨.ok .success, versionText, [], w⟩
  | .error .misuse => ⟨.ok .misuse, [], wording.usage, w⟩
  | .ok i =>
    match i.command with
    -- Without a command no configuration is read.
    | none => ⟨.ok .failure, wording.help, [], w⟩
    | some command => performConfigured wording i w command

end Program

end CanonStore
