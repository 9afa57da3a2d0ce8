import CanonStore.FileSystem.Walk

/-!
# Directories and status

What can be done with files without opening them: making directories, removing files, changing and
asking for permissions, and listing what the current directory holds.
-/

namespace CanonStore

/-- What is known of a file or directory. -/
structure Status where
  size : Nat
  mode : Nat
deriving DecidableEq

/-- What a listing says of a file or directory. -/
structure Listed where
  path : Text
  /-- The size of a file; nothing for a directory. -/
  size : Option Nat
deriving DecidableEq

namespace FileSystem

def directorySize : Nat := 4096

def nodeAt (fs : FileSystem) (d : Destination) : Except Refusal Node :=
  match fs.lookFor d.place with
  | .error r => .error r
  | .ok (.directory mode) => .ok (.directory mode)
  | .ok n => if d.asDirectory then .error .notDirectory else .ok n

def nodeOf (fs : FileSystem) (path : Text) : Except FileFault (Place × Node) := do
  let d ← fs.locate path
  let n ← (fs.nodeAt d).mapError fun r => .system (r.ofPath path)
  pure (d.place, n)

def status (fs : FileSystem) (path : Text) : Except FileFault Status :=
  (fs.nodeOf path).map fun found =>
    match found.2 with
    | .file content mode => ⟨content.length, mode⟩
    | .directory mode => ⟨directorySize, mode⟩
    | .device _ => ⟨0, 0o666⟩

/-- A path leads to something. A path that cannot be one leads nowhere. -/
def hasPath (fs : FileSystem) (path : Text) : Except SystemFault Bool :=
  match fs.nodeOf path with
  | .ok _ => .ok true
  | .error (.system fault) =>
    if fault.number = Refusal.missing.number || fault.number = Refusal.notDirectory.number then .ok false
    else .error fault
  | .error _ => .ok false

/-- Changes the permissions of a file or directory. -/
def setMode (fs : FileSystem) (path : Text) (mode : Nat) : Except FileFault FileSystem :=
  (fs.nodeOf path).map fun found =>
    match found.2 with
    | .file content _ => fs.put found.1 (.file content mode)
    | .directory _ => fs.put found.1 (.directory mode)
    | .device _ => fs

def makeDirectory (fs : FileSystem) (path : Text) : Except FileFault FileSystem := do
  let d ← fs.locate path
  match fs.lookFor d.place with
  | .ok _ => .error (.system (Refusal.exists.ofPath path))
  | .error .missing =>
    if fs.allowsEntries d.place.dropLast then .ok (fs.put d.place (.directory (fs.allowed 0o777)))
    else .error (.system (Refusal.denied.ofPath path))
  | .error r => .error (.system (r.ofPath path))

/-- Why what stands at a destination cannot be removed as a file. A file belongs to its directory, whose
permissions are the ones that count. -/
def removeRefusal? (fs : FileSystem) (d : Destination) : Option Refusal :=
  let granted (r? : Option Refusal) : Option Refusal :=
    if fs.allowsEntries d.place.dropLast then r? else some .denied
  match fs.lookFor d.place with
  | .error r => some r
  | .ok (.directory _) => if d.asDirectory then some .isDirectory else granted (some .isDirectory)
  | .ok _ => if d.asDirectory then some .notDirectory else granted none

def remove (fs : FileSystem) (path : Text) : Except FileFault FileSystem := do
  let d ← fs.locate path
  match fs.removeRefusal? d with
  | some r => .error (.system (r.ofPath path))
  | none => .ok (fs.erase d.place)

/-- The place as seen from a directory above it. -/
def relative? (directory : Place) (p : Place) : Option (List Text) :=
  if directory.isPrefixOf p && directory.length < p.length then some (p.drop directory.length) else none

/-- What a listing of the current directory says of a node. -/
def listed? (fs : FileSystem) (e : Place × Node) : Option Listed :=
  (relative? fs.current e.1).map fun names =>
    match e.2 with
    | .file content _ => ⟨Text.joinWith "/" names, some content.length⟩
    | .directory _ => ⟨Text.joinWith "/" names ++ "/", none⟩
    | .device _ => ⟨Text.joinWith "/" names, some 0⟩

/-- All that the current directory holds, in the order of the paths. -/
def list (fs : FileSystem) : List Listed :=
  (fs.nodes.filterMap fs.listed?).mergeSort fun a b => if b.path < a.path then false else true

end FileSystem

end CanonStore
