import CanonStore.FileSystem.Fault

/-!
# File systems

A file system says what stands at each place. Files have a content and permissions, directories have
permissions, and devices take what is written to them or refuse it. It also knows the current
directory, the permissions that new files never get, and the handles that are open.

What the process may do with a node hangs on the place and the permissions of the node (`permits`). Permissions
are the nine bits of the owner, the group and all others; the bits by which a program takes over the rights of its
owner are none of them. What lies under the files, the `Medium`, may let an open file down when it is read, written
or closed.

`node?` is the view of a file system; `put` and `erase` change it at one place.
-/

namespace CanonStore

/-- The names from the root down to a file or directory. -/
abbrev Place := List Text

/-- Devices that stand among files. -/
inductive Device where
  /-- Empty to read, and swallows what is written. -/
  | null
  /-- Has no room for anything. -/
  | full
deriving DecidableEq

/-- What stands at a place. -/
inductive Node where
  | file (content : Bytes) (mode : Nat)
  | directory (mode : Nat)
  | device (kind : Device)
deriving DecidableEq

/-- The permissions of a node. Devices are open to all. -/
def Node.mode : Node → Nat
  | .file _ mode | .directory mode => mode
  | .device _ => 0o666

/-- A file that is open, known by a number. -/
structure Handle where
  number : Nat
  place : Place
deriving DecidableEq

/-- What a process does with a node under the eyes of the system. -/
inductive Access where
  | read
  | write
  /-- Looks for a name in a directory. -/
  | search
deriving DecidableEq

namespace Access

/-- The permission that the owner of a node needs. -/
def ownerBit : Access → Nat
  | .read => 8
  | .write => 7
  | .search => 6

/-- An ordinary process that owns all nodes. -/
def byOwner (access : Access) (_ : Place) (mode : Nat) : Bool := mode.testBit access.ownerBit

/-- A process that permissions do not bind. -/
def privileged (_ : Access) (_ : Place) (_ : Nat) : Bool := true

end Access

/-- How what lies under a file system lets open files down, place by place. -/
structure Medium where
  /-- Reading fails. -/
  reading : Place → Option SystemFault
  /-- Writing fails, after the given number of octets. -/
  writing : Place → Option (Nat × SystemFault)
  /-- Closing fails. -/
  closing : Place → Option SystemFault

/-- A medium that never fails. -/
def Medium.sound : Medium := ⟨fun _ => none, fun _ => none, fun _ => none⟩

/-- A file system. -/
structure FileSystem where
  /-- What stands where. Of two nodes for one place the first counts. -/
  nodes : List (Place × Node)
  current : Place
  /-- Permissions that new files and directories do not get. -/
  mask : Nat
  handles : List Handle
  /-- Whether the process has access to a node, by the place of the node and its permissions. -/
  permits : Access → Place → Nat → Bool
  medium : Medium

namespace FileSystem

def node? (fs : FileSystem) (p : Place) : Option Node :=
  (fs.nodes.find? fun e => e.1 = p).map (·.2)

def putNode (p : Place) (n : Node) : List (Place × Node) → List (Place × Node)
  | [] => [(p, n)]
  | e :: rest => if e.1 = p then (p, n) :: rest else e :: putNode p n rest

def put (fs : FileSystem) (p : Place) (n : Node) : FileSystem := { fs with nodes := putNode p n fs.nodes }

def erase (fs : FileSystem) (p : Place) : FileSystem :=
  { fs with nodes := fs.nodes.filter fun e => e.1 ≠ p }

/-- The permissions of a new node that asks for some. -/
def allowed (fs : FileSystem) (mode : Nat) : Nat := mode &&& (0o777 ^^^ (fs.mask &&& 0o777))

def content? (fs : FileSystem) (p : Place) : Option Bytes :=
  match fs.node? p with
  | some (.file content _) => some content
  | _ => none

/-- The permissions of the file or directory at a place. -/
def mode? (fs : FileSystem) (p : Place) : Option Nat :=
  match fs.node? p with
  | some (.file _ mode) | some (.directory mode) => some mode
  | _ => none

/-- The process has access to what stands at a place. -/
def allows (fs : FileSystem) (access : Access) (p : Place) : Bool :=
  (fs.node? p).any fun n => fs.permits access p n.mode

/-- The process may add to the directory at a place and take from it. -/
def allowsEntries (fs : FileSystem) (p : Place) : Bool :=
  match fs.node? p with
  | some (.directory mode) => fs.permits .write p mode
  | _ => false

/-- The process may write what stands at a place, or put something there where nothing stands. -/
def mayWrite (fs : FileSystem) (p : Place) : Bool :=
  if (fs.node? p).isSome then fs.allows .write p else fs.allowsEntries p.dropLast

/-- A file system that holds the current directory, those above it and the devices, for a process that
permissions do not bind. -/
def fresh (current : Place) (mask : Nat) : FileSystem :=
  let above : List (Place × Node) :=
    (List.range (current.length + 1)).map fun n => (current.take n, .directory 0o755)
  let devices : List (Place × Node) :=
    [(["dev"], .directory 0o755), (["dev", "null"], .device .null), (["dev", "full"], .device .full)]
  ⟨above ++ devices, current, mask, [], Access.privileged, .sound⟩

/-! ## The view after a change -/

theorem find?_putNode (p q : Place) (n : Node) (nodes : List (Place × Node)) :
    ((putNode p n nodes).find? fun e => e.1 = q).map (·.2) =
      if q = p then some n else (nodes.find? fun e => e.1 = q).map (·.2) := by
  induction nodes with
  | nil => by_cases h : q = p <;> simp [putNode, h, eq_comm]
  | cons e rest ih =>
    by_cases he : e.1 = p
    · by_cases h : q = p
      · simp [putNode, he, h]
      · have hpq : ¬p = q := fun hq => h hq.symm
        simp [putNode, he, h, hpq]
    · by_cases heq : e.1 = q
      · have h : ¬q = p := fun hq => he (heq.trans hq)
        simp [putNode, heq, h]
      · simpa [putNode, he, heq] using ih

/-- After putting a node, it stands at its place and all others stand where they stood. -/
theorem node?_put (fs : FileSystem) (p : Place) (n : Node) (q : Place) :
    (fs.put p n).node? q = if q = p then some n else fs.node? q :=
  find?_putNode p q n fs.nodes

end FileSystem

end CanonStore
