import CanonStore.Document
import CanonStore.FileSystem.Handle
import CanonStore.Log

/-!
# The store

Whole files of octets, and values stored as documents. Each operation opens at most one file and
closes it again on every way out. A file that is saved is first created, or emptied with its
permissions kept, so that an operation that fails later leaves an empty file behind.

`Store.save` and `Store.load` are about octets, `Store.saveValue` and `Store.loadValue` about values.
Each answers a result, the files afterwards, and what it logged.
-/

namespace CanonStore

/-- What an operation answers, the files after it, and what it logged. -/
structure Effect (α : Type) where
  result : Except Fault α
  files : FileSystem
  log : List LogRecord

namespace Store

/-- The permissions that a stored file asks for when it is created. -/
def fileMode : Nat := 0o644

/-- Opens a file to replace its content. An obstacle keeps the open file from being used: it is closed
again, with its old content lost, and the obstacle is the fault unless closing fails as well. -/
def openAnew (fs : FileSystem) (path : Text) (obstacle : Option SystemFault) :
    Except FileFault Handle × FileSystem :=
  match fs.openFile (.replace fileMode) path with
  | .error fault => (.error fault, fs)
  | .ok (h, opened) =>
    match obstacle with
    -- The content is gone already when the obstacle is met.
    | some fault => opened.closeAfter h (.error (.system fault))
    | none => (.ok h, opened)

def replace (fs : FileSystem) (path : Text) (octets : Bytes) (obstacle : Option SystemFault) :
    Except FileFault Unit × FileSystem :=
  match openAnew fs path obstacle with
  | (.error fault, files) => (.error fault, files)
  | (.ok h, opened) => opened.writeAndClose h octets

def octetCount (octets : Bytes) : Text := Numeral.ofNat octets.length ++ " bytes"

/-! ## Octets -/

/-- The part of the program that stores octets. -/
def octetSource : Text := "chainutil.storage.raw"

/-- A failed operation: a refusal of the system is logged as an error and reported, any other fault
passes as it is. -/
def fail {α : Type} (files : FileSystem) (source : Text) (kind : ReportKind) (what path : Text)
    (fault : FileFault) : Effect α :=
  match fault with
  | .system fault =>
    let message : Text := what ++ " file " ++ path ++ ": " ++ fault.message
    ⟨.error (.located kind message (some path) (some fault.toFault) []), files, [⟨.error, source, message⟩]⟩
  | other => ⟨.error other.toFault, files, []⟩

/-- What cannot be done when a file is not written. -/
def unableToWrite : Text := "Unable to write to"

/-- What cannot be done when a file is not read. -/
def unableToLoad : Text := "Unable to load"

/-- What cannot be done when a file is not opened to be written. -/
def unableToCreate : Text := "Unable to create"

/-- Stores octets as the whole content of a file. -/
def save (fs : FileSystem) (path : Text) (octets : Bytes) (obstacle : Option SystemFault) : Effect Unit :=
  match replace fs path octets obstacle with
  | (.error fault, files) => fail files octetSource .storage unableToWrite path fault
  | (.ok (), files) =>
    ⟨.ok (), files, [⟨.debug, octetSource, "Saved " ++ octetCount octets ++ " to " ++ path⟩]⟩

/-- The octets of a file. The file is opened by the normal text of the path. -/
def load (fs : FileSystem) (path : Text) : Effect Bytes :=
  match fs.readFile (PathName.normalText path) with
  | (.error fault, files) => fail files octetSource .storage unableToLoad path fault
  | (.ok octets, files) =>
    ⟨.ok octets, files, [⟨.debug, octetSource, "Loaded " ++ octetCount octets ++ " from " ++ path⟩]⟩

/-! ## Values -/

/-- The part of the program that stores values. -/
def valueSource : Text := "chainutil.storage.objects"

/-- A report of a kind on a file, resting on a report of the same kind on its content. Any other fault
passes as it is. -/
def about (kind : ReportKind) (what path : Text) (keepDetails : Bool) (fault : Fault) : Fault :=
  match fault with
  | .report inner content cause =>
    -- A report of another kind comes from elsewhere and is not about the file.
    if inner = kind then
      let details := if keepDetails then content.details.dictEntries?.getD [] else []
      .located kind (what ++ " file " ++ path ++ ": " ++ fault.text) (some path)
        (some (.report inner content cause)) details
    else fault
  | other => other

/-- Stores a value as the whole content of a file. The file is opened first and the value encoded
then. -/
def saveValue (fs : FileSystem) (path : Text) (v : Value) (obstacle : Option SystemFault) : Effect Unit :=
  match openAnew fs path obstacle with
  | (.error fault, files) => fail files valueSource .fileCreate unableToCreate path fault
  | (.ok h, opened) =>
    match Document.encode v none with
    -- Nothing is written, but the file was emptied by opening it.
    | .error fault =>
      match opened.close h with
      -- The file has to be closed all the same, and that it cannot be is what is reported then.
      | (.error closing, files) => fail files valueSource .storage unableToWrite path (.system closing)
      | (.ok (), files) =>
        ⟨.error (about .encode "Unable to encode object before saving to" path true fault), files, []⟩
    | .ok octets =>
      match opened.writeAndClose h octets with
      | (.error fault, files) => fail files valueSource .storage unableToWrite path fault
      | (.ok (), files) =>
        ⟨.ok (), files,
          [⟨.debug, valueSource,
            "Saved " ++ v.typeName ++ " (" ++ octetCount octets ++ ") to " ++ path⟩]⟩

/-- The value that a file holds, read as a target. -/
def loadValue (fs : FileSystem) (path : Text) (target : Document.Target) : Effect Value :=
  match fs.readFile path with
  | (.error fault, files) => fail files valueSource .fileOpen unableToLoad path fault
  | (.ok octets, files) =>
    match Document.decode octets target none with
    | .error fault => ⟨.error (about .decode "Unable to decode loaded" path false fault), files, []⟩
    | .ok v =>
      ⟨.ok v, files,
        [⟨.debug, valueSource,
          "Loaded " ++ v.typeName ++ " (" ++ octetCount octets ++ ") from " ++ path⟩]⟩

end Store

end CanonStore
