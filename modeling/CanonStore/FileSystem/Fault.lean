import CanonStore.Fault
import CanonStore.Text.Quoted
import CanonStore.Text.Utf8

/-!
# Faults of file operations

A system refuses an operation with a number, a text and the file that is concerned, if it names one.
Before the system is asked at all, a path may turn out to be none.
-/

namespace CanonStore

/-- A refusal of the system. -/
structure SystemFault where
  number : Int
  text : Text
  /-- The path of the file that is concerned, as it is shown. -/
  file : Option Text
deriving DecidableEq

namespace SystemFault

def message (f : SystemFault) : Text :=
  "[Errno " ++ Numeral.ofInt f.number ++ "] " ++ f.text ++
    (match f.file with
     | none => []
     | some file => ": " ++ file)

def kind (f : SystemFault) : SystemKind := SystemKind.ofNumber f.number

def toFault (f : SystemFault) : Fault := .plain (.system f.kind) f.message

end SystemFault

/-- What the library knows the system to refuse a file operation for. -/
inductive Refusal where
  | missing
  | exists
  | notDirectory
  | isDirectory
  | noSpace
  | nameTooLong
  | denied
deriving DecidableEq

namespace Refusal

def number : Refusal → Int
  | .missing => 2
  | .exists => 17
  | .notDirectory => 20
  | .isDirectory => 21
  | .noSpace => 28
  | .nameTooLong => 36
  | .denied => 13

def text : Refusal → Text
  | .missing => "No such file or directory"
  | .exists => "File exists"
  | .notDirectory => "Not a directory"
  | .isDirectory => "Is a directory"
  | .noSpace => "No space left on device"
  | .nameTooLong => "File name too long"
  | .denied => "Permission denied"

def ofPath (r : Refusal) (path : Text) : SystemFault := ⟨r.number, r.text, some path.quoted⟩

/-- The refusal of an operation on an open file. -/
def ofHandle (r : Refusal) : SystemFault := ⟨r.number, r.text, none⟩

end Refusal

/-- Why a file operation fails. -/
inductive FileFault where
  | system (fault : SystemFault)
  /-- The path has no octets. -/
  | unencodable (fault : EncodingFault)
  /-- The path holds the octet zero. -/
  | nullByte
  /-- What is read has no end. -/
  | endless
deriving DecidableEq

namespace FileFault

def toFault : FileFault → Fault
  | .system fault => fault.toFault
  | .unencodable fault => .plain .textEncoding fault.message
  | .nullByte => .plain .value "embedded null byte"
  | .endless => .plain (.other "MemoryError") []

end FileFault

end CanonStore
