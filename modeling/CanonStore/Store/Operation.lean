import CanonStore.Store

/-!
# Runs of the store

The four operations of the store as data, so that a run of it is a list. `Store.perform` does what an
operation asks for, and `Store.after` is what a run leaves of the files.
-/

namespace CanonStore

/-- What an operation answers, read as something else. -/
def Effect.map {α β : Type} (f : α → β) (e : Effect α) : Effect β := ⟨e.result.map f, e.files, e.log⟩

namespace Store

/-- What the store can be asked to do with a file. -/
inductive Operation where
  | save (path : Text) (octets : Bytes) (obstacle : Option SystemFault)
  | load (path : Text)
  | saveValue (path : Text) (v : Value) (obstacle : Option SystemFault)
  | loadValue (path : Text) (target : Document.Target)

/-- What an operation gives back. -/
inductive Answer where
  | done
  | octets (b : Bytes)
  | value (v : Value)

def Operation.path : Operation → Text
  | .save path _ _ | .load path | .saveValue path _ _ | .loadValue path _ => path

/-- What keeps the operation from using a file that it has opened. -/
def Operation.obstacle? : Operation → Option SystemFault
  | .save _ _ obstacle | .saveValue _ _ obstacle => obstacle
  | .load _ | .loadValue _ _ => none

def perform (fs : FileSystem) : Operation → Effect Answer
  | .save path octets obstacle => (save fs path octets obstacle).map fun _ => .done
  | .load path => (load fs path).map .octets
  | .saveValue path v obstacle => (saveValue fs path v obstacle).map fun _ => .done
  | .loadValue path target => (loadValue fs path target).map .value

/-- The files after a run, from those before it. -/
def after (fs : FileSystem) (run : List Operation) : FileSystem :=
  run.foldl (fun files op => (perform files op).files) fs

end Store

end CanonStore
