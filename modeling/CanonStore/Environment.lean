import CanonStore.Text

/-!
# The environment

The variables of the environment that configure the program. A variable that is empty counts as not
set.
-/

namespace CanonStore

/-- The settings that the environment makes. -/
structure Environment where
  logLevel : Option Text
  logFile : Option Text
  storageDir : Option Text
  debug : Option Text
deriving DecidableEq

namespace Environment

/-- What the names of the variables start with. -/
def namePrefix : Text := "CHAINUTIL_"

/-- The value of a variable that is set and not empty. -/
def setting? (name : Text) (assignments : List (Text × Text)) : Option Text :=
  match assignments.find? fun v => v.1 = namePrefix ++ name with
  | some (_, value) => if value.isEmpty then none else some value
  | none => none

def ofVariables (assignments : List (Text × Text)) : Environment :=
  ⟨setting? "LOG_LEVEL" assignments, setting? "LOG_FILE" assignments,
   setting? "STORAGE_DIR" assignments, setting? "DEBUG" assignments⟩

def empty : Environment := ⟨none, none, none, none⟩

/-- The word for `debug` that turns debugging on, in letters of either case. -/
def isDebugWord (t : Text) : Bool := t.map CodePoint.toLowerAscii = Text.ofString "true"

end Environment

end CanonStore
