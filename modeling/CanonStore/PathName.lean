import CanonStore.Text

/-!
# Path names

A path name is a root and the names below it. Reading a text drops empty names, the name `.` and a
slash at the end, but keeps `..`; exactly two slashes in front are a root of their own. Writing gives
the normal text of a path, which reads back to the same path.
-/

namespace CanonStore

/-- Where a path starts. -/
inductive PathRoot where
  /-- At the current directory. -/
  | none
  | slash
  | doubleSlash
deriving DecidableEq

def PathRoot.text : PathRoot → Text
  | .none => []
  | .slash => "/"
  | .doubleSlash => "//"

/-- A root and the names below it. -/
structure PathName where
  root : PathRoot
  names : List Text
deriving DecidableEq

namespace PathName

/-- The root that a text shows by its leading slashes. -/
def rootOf (t : Text) : PathRoot :=
  match (t.takeWhile fun c : CodePoint => c = '/').length with
  | 0 => .none
  | 2 => .doubleSlash
  | _ => .slash

def isProper (name : Text) : Bool := !name.isEmpty && name ≠ Text.ofString "."

def ofText (t : Text) : PathName := ⟨rootOf t, (Text.splitOn 0x2F t).filter isProper⟩

/-- The text of a path; a path without root and names is the point. -/
def text (p : PathName) : Text :=
  if p.root = .none && p.names.isEmpty then "." else p.root.text ++ Text.joinWith "/" p.names

def isAbsolute (p : PathName) : Bool := p.root ≠ .none

/-- The second path as seen from the first; a path with a root stands for itself. -/
def join (p q : PathName) : PathName := if q.isAbsolute then q else ⟨p.root, p.names ++ q.names⟩

def normalText (t : Text) : Text := (ofText t).text

/-- The names below the root that names lead to: `..` takes back the name before it. -/
def collapse (names : List Text) : List Text :=
  names.foldl (fun kept n => if n = Text.ofString ".." then kept.dropLast else kept ++ [n]) []

/-- The path from the root, as seen from a directory with the given names. -/
def absolute (directory : List Text) (p : PathName) : PathName :=
  if p.isAbsolute then ⟨p.root, collapse p.names⟩ else ⟨.slash, collapse (directory ++ p.names)⟩

end PathName

end CanonStore
