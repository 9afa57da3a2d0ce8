import CanonStore.FileSystem.Walk

/-!
# Open files

A file is opened to be read, to be replaced, or to be extended. Opening creates a missing file and
empties one that is to be replaced, before anything is written. An open file is read as a whole, takes
octets at its end, and is closed. Each of these can fail, closing too; the handle is gone all the same.
-/

namespace CanonStore

/-- What a file is opened for. -/
inductive Purpose where
  | read
  /-- To get a new content; a missing file is created with the permissions. -/
  | replace (mode : Nat)
  /-- To get more content; a missing file is created with the permissions. -/
  | extend (mode : Nat)
deriving DecidableEq

namespace FileSystem

def freeNumber (fs : FileSystem) : Nat :=
  ((List.range (fs.handles.length + 1)).find? fun n => !fs.handles.any (·.number = n)).getD
    fs.handles.length

/-- A handle on a place, and the file system in which it is open. -/
def attach (fs : FileSystem) (p : Place) : Handle × FileSystem :=
  let h : Handle := ⟨fs.freeNumber, p⟩
  (h, { fs with handles := h :: fs.handles })

/-- The file system once a handle is given up. -/
def release (fs : FileSystem) (h : Handle) : FileSystem := { fs with handles := fs.handles.erase h }

/-- Closes a file. The handle is given up even if that fails. -/
def close (fs : FileSystem) (h : Handle) : Except SystemFault Unit × FileSystem :=
  match fs.medium.closing h.place with
  | some fault => (.error fault, fs.release h)
  | none => (.ok (), fs.release h)

/-- What was done with a file, once the file is closed. A failure to close it takes the place of all else. -/
def closeAfter {α : Type} (fs : FileSystem) (h : Handle) (r : Except FileFault α) :
    Except FileFault α × FileSystem :=
  match fs.close h with
  | (.error fault, files) => (.error (.system fault), files)
  | (.ok (), files) => (r, files)

def readRefusal? (fs : FileSystem) (d : Destination) : Option Refusal :=
  let granted (r? : Option Refusal) : Option Refusal :=
    if fs.allows .read d.place then r? else some .denied
  match fs.lookFor d.place with
  | .error r => some r
  | .ok (.directory _) => granted (some .isDirectory)
  | .ok _ => if d.asDirectory then some .notDirectory else granted none

def writeRefusal? (fs : FileSystem) (d : Destination) : Option Refusal :=
  let granted : Option Refusal := if fs.mayWrite d.place then none else some .denied
  if d.asDirectory then some .isDirectory
  else match fs.lookFor d.place with
    | .error .missing => granted
    | .error r => some r
    | .ok (.directory _) => some .isDirectory
    | .ok _ => granted

def vacate (fs : FileSystem) (mode : Nat) (p : Place) : FileSystem :=
  match fs.node? p with
  | none => fs.put p (.file [] (fs.allowed mode))
  | some (.file _ own) => fs.put p (.file [] own)
  | some _ => fs

def provide (fs : FileSystem) (mode : Nat) (p : Place) : FileSystem :=
  match fs.node? p with
  | none => fs.put p (.file [] (fs.allowed mode))
  | some _ => fs

def openAt (fs : FileSystem) (purpose : Purpose) (d : Destination) : Except Refusal (Handle × FileSystem) :=
  let granted (refusal? : Option Refusal) (files : FileSystem) : Except Refusal (Handle × FileSystem) :=
    match refusal? with
    | some r => .error r
    | none => .ok (files.attach d.place)
  match purpose with
  | .read => granted (fs.readRefusal? d) fs
  | .replace mode => granted (fs.writeRefusal? d) (fs.vacate mode d.place)
  | .extend mode => granted (fs.writeRefusal? d) (fs.provide mode d.place)

def openFile (fs : FileSystem) (purpose : Purpose) (path : Text) : Except FileFault (Handle × FileSystem) := do
  let d ← fs.locate path
  (fs.openAt purpose d).mapError fun r => .system (r.ofPath path)

def readAll (fs : FileSystem) (h : Handle) : Except FileFault Bytes :=
  match fs.medium.reading h.place, fs.node? h.place with
  | some fault, _ => .error (.system fault)
  | none, some (.file content _) => .ok content
  | none, some (.device .full) => .error .endless
  | none, _ => .ok []

/-- The file at a place with octets added at its end. Devices keep nothing. -/
def append (fs : FileSystem) (p : Place) (octets : Bytes) : FileSystem :=
  match fs.node? p with
  | some (.file content mode) => fs.put p (.file (content ++ octets) mode)
  | _ => fs

/-- How many octets an open file takes before it fails, and the failure; none if it takes all of them. -/
def writeFault? (fs : FileSystem) (h : Handle) (octets : Bytes) : Option (Nat × SystemFault) :=
  match fs.node? h.place, fs.medium.writing h.place with
  | some (.device .full), _ => if octets.isEmpty then none else some (0, Refusal.noSpace.ofHandle)
  | _, some (room, fault) => if octets.length ≤ room then none else some (room, fault)
  | _, none => none

/-- Writes octets at the end of an open file. If that fails, the first of them may have been written. -/
def write (fs : FileSystem) (h : Handle) (octets : Bytes) : Except SystemFault Unit × FileSystem :=
  match fs.writeFault? h octets with
  | some (room, fault) => (.error fault, fs.append h.place (octets.take room))
  | none => (.ok (), fs.append h.place octets)

/-- The content of a file, which is open only while it is read. -/
def readFile (fs : FileSystem) (path : Text) : Except FileFault Bytes × FileSystem :=
  match fs.openFile .read path with
  | .error fault => (.error fault, fs)
  | .ok (h, opened) => opened.closeAfter h (opened.readAll h)

/-- Writes octets to an open file and closes it, whether they can be written or not. -/
def writeAndClose (fs : FileSystem) (h : Handle) (octets : Bytes) : Except FileFault Unit × FileSystem :=
  match fs.write h octets with
  | (r, written) => written.closeAfter h (r.mapError .system)

end FileSystem

end CanonStore
