import CanonStore.FileSystem
import CanonStore.FileSystem.Fault

/-!
# Walking paths

A path leads from the root or the current directory along its names. Every name but the last has to
lead to a directory that the process may search; what the last leads to may be missing. `FileSystem.locate` says where a path
leads, and whether a slash at its end asks for a directory.
-/

namespace CanonStore

namespace FilePath

/-- The surrogate stands for a single octet that is no UTF-8. -/
def isEscape (c : CodePoint) : Bool := 0xDC80 ≤ c.val && c.val ≤ 0xDCFF

/-- The first run of surrogates that stand for nothing, in a path that starts at the given position. -/
def unencodableFrom? (position : Nat) : Text → Option EncodingFault
  | [] => none
  | c :: rest =>
    if c.isSurrogate && !isEscape c then
      some ⟨c, position, 1 + (rest.takeWhile CodePoint.isSurrogate).length⟩
    else unencodableFrom? (position + 1) rest

/-- The octets of a path without such surrogates. -/
def octets (path : Text) : Bytes :=
  path.flatMap fun c => if isEscape c then [UInt8.ofNat (c.val - 0xDC00)] else Utf8.encodeOne c

def ofOctets (octets : Bytes) : Text :=
  match Utf8.decode false octets with
  | .ok t => t
  | .error _ => octets.map fun b => if b < 0x80 then CodePoint.ofByte b else CodePoint.ofNat (0xDC00 + b.toNat)

def maxName : Nat := 255

def maxPath : Nat := 4095

/-- Demands a path that the system can be asked for. -/
def check (path : Text) : Except FileFault Unit :=
  match unencodableFrom? 0 path with
  | some fault => .error (.unencodable fault)
  | none => if path.contains 0 then .error .nullByte else .ok ()

def names (path : Text) : List Text := (Text.splitOn 0x2F path).filter fun n => !n.isEmpty

def endsInSlash (path : Text) : Bool := path.getLast? = some (0x2F : CodePoint)

end FilePath

/-- Where a path leads. -/
structure Destination where
  place : Place
  /-- Only a directory may stand there. -/
  asDirectory : Bool
deriving DecidableEq

namespace Place

/-- The place that a name means in a directory. -/
def next (p : Place) (name : Text) : Place :=
  if name = Text.ofString "." then p
  else if name = Text.ofString ".." then p.dropLast
  else p ++ [name]

/-- The places along names, that of the directory included. -/
def along : Place → List Text → List Place
  | p, [] => [p]
  | p, name :: rest => p :: along (next p name) rest

end Place

namespace FileSystem

/-- Looks for what stands at a place. A name that is too long cannot even be looked for. -/
def lookFor (fs : FileSystem) (p : Place) : Except Refusal Node :=
  if p.getLast?.any fun name => FilePath.maxName < (FilePath.octets name).length then .error .nameTooLong
  else match fs.node? p with
    | some n => .ok n
    | none => .error .missing

def step (fs : FileSystem) (p : Place) (name : Text) : Except Refusal Place :=
  match fs.lookFor p with
  | .error r => .error r
  | .ok (.directory mode) => if fs.permits .search p mode then .ok (p.next name) else .error .denied
  | .ok _ => .error .notDirectory

def walk (fs : FileSystem) : Place → List Text → Except Refusal Place
  | p, [] => .ok p
  | p, name :: rest => do fs.walk (← fs.step p name) rest

def start (fs : FileSystem) (path : Text) : Place :=
  if path.head? = some (0x2F : CodePoint) then [] else fs.current

/-- Where a path leads, or why it leads nowhere. -/
def search (fs : FileSystem) (path : Text) : Except Refusal Destination :=
  if path.isEmpty then .error .missing
  else if FilePath.maxPath < (FilePath.octets path).length then .error .nameTooLong
  else (fs.walk (fs.start path) (FilePath.names path)).map (⟨·, FilePath.endsInSlash path⟩)

def locate (fs : FileSystem) (path : Text) : Except FileFault Destination := do
  FilePath.check path
  (fs.search path).mapError fun r => .system (r.ofPath path)

end FileSystem

end CanonStore
