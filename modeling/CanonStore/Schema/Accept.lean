import CanonStore.Schema
import CanonStore.Schema.Scalar

/-!
# Accepting values as records

`Shape.accept` reads a value as a shape demands: it gives the converted value, or all problems in the
order of the declared fields, unknown fields last. `RecordType.make` builds a record from fields that
a caller names, `RecordType.assign` sets one field of a record.
-/

namespace CanonStore

/-- A value, or everything that is wrong with it. -/
abbrev Accepted (α : Type) := Except (List Problem) α

namespace Accepted

def fail {α : Type} (kind : ProblemKind) : Accepted α := .error [⟨kind, []⟩]

def scalar {α : Type} (wrap : α → Value) : Except ProblemKind α → Accepted Value
  | .ok x => .ok (wrap x)
  | .error kind => fail kind

/-- The outcome as seen from one step further out. -/
def under {α : Type} (step : Step) (a : Accepted α) : Accepted α :=
  a.mapError fun ps => ps.map (Problem.under step)

def gather {α : Type} : List (Accepted α) → Accepted (List α)
  | [] => .ok []
  | .ok x :: rest => (gather rest).map (x :: ·)
  -- All problems are gathered, so the rest is read although it can no longer succeed.
  | .error ps :: rest =>
    match gather rest with
    | .ok _ => .error ps
    | .error qs => .error (ps ++ qs)

/-- Puts the step to each item in front of its problems; the first item has the given index. -/
def numbered {α : Type} (index : Nat) : List (Accepted α) → List (Accepted α)
  | [] => []
  | a :: rest => a.under (.index index) :: numbered (index + 1) rest

end Accepted

def Step.ofKey (key : Value) : Step :=
  match key with
  | .text t | .textMember _ t => .name t
  | .bool b => .index (if b then 1 else 0)
  | .int n | .intMember _ n =>
    -- A step holds a word of 64 bits; any other integer is given by its text.
    if -0x8000000000000000 ≤ n ∧ n < 0x8000000000000000 then .index n else .name (key.display?.getD [])
  | _ => .name (key.display?.getD [])

/-- An entry of a mapping: its key has to be a text. -/
def acceptEntry (e : Value × Value) : Accepted (Value × Value) :=
  match Scalar.text e.1 with
  | .ok t => .ok (.text t, e.2)
  | .error kind => ((Accepted.fail kind).under (.name "[key]")).under (Step.ofKey e.1)

def Bound.broken? (n : Int) (bounds : List Bound) : Option ProblemKind :=
  (bounds.find? fun b => !b.holds n).map fun b =>
    match b with
    | .atMost _ => .notAtMost
    | .below _ => .notBelow
    | .atLeast _ => .notAtLeast

/-- Problems with the entries that no label of a closed record names. -/
def extraProblems (labels : List Text) (entries : List (Value × Value)) : List Problem :=
  entries.filterMap fun e =>
    match e.1.text? with
    | some t => if labels.contains t then none else some ⟨.extraForbidden, [.name t]⟩
    | none => some ⟨.invalidKey, [Step.ofKey e.1]⟩

def Accepted.also {α : Type} (a : Accepted α) (later : List Problem) : Accepted α :=
  match a, later with
  | a, [] => a
  | .ok _, ps => .error ps
  | .error ps, qs => .error (ps ++ qs)

mutual

def Shape.accept (origin : Origin) : Shape → Value → Accepted Value
  | .text, v => .scalar .text (Scalar.text v)
  | .bytes, v => .scalar .bytes (Scalar.bytes v)
  | .int bounds, v =>
    match Scalar.int v with
    | .error kind => .fail kind
    | .ok n =>
      match Bound.broken? n bounds with
      | some kind => .fail kind
      | none => .ok (.int n)
  | .float, v => .scalar .float (Scalar.float origin v)
  | .bool, v => .scalar .bool (Scalar.bool v)
  | .moment, v => .scalar .moment (Scalar.moment v)
  | .mapping, v =>
    match v.dictEntries? with
    | some entries =>
      (Accepted.gather (entries.map acceptEntry)).map fun es => .dict (Value.joinEntries es)
    | none => .fail .dictType
  | .optionalText, v =>
    match v with
    | .null => .ok .null
    | _ => .scalar .text (Scalar.text v)
  | .option, v =>
    match v.text?.bind optionOfText? with
    | some member => .ok member
    | none => .fail .choice
  | .callable, v =>
    match v with
    | .foreign kind => if kind.isCallable then .ok v else .fail .callableType
    | _ => .fail .callableType
  | .list item, v =>
    match v.listItems? with
    | some vs => (Accepted.gather (Accepted.numbered 0 (vs.map (Shape.accept origin item)))).map .list
    | none => .fail .listType
  | .record type fields, v =>
    match v, v.dictEntries? with
    -- A record of the type passes as it is: its fields were checked when it was made.
    | .record t fs, _ => if t = type then .ok (.record t fs) else .fail .recordType
    | _, some entries =>
      -- The problems of unknown fields come last, and there are any only if the record is closed.
      Accepted.also ((Accepted.gather (Shape.acceptFields origin entries fields)).map (Value.record type))
        (if type.isClosed then extraProblems (fields.map (·.label)) entries else [])
    | _, none => .fail .recordType

/-- Reads the entry of each field; a field without one takes its default. -/
def Shape.acceptFields (origin : Origin) (entries : List (Value × Value)) :
    List (FieldOf Shape) → List (Accepted (Text × Value))
  | [] => []
  | ⟨name, label, shape, default?⟩ :: rest =>
    (match Value.lookup? label entries, default? with
     | some v, _ => Accepted.under (.name label) ((Shape.accept origin shape v).map (name, ·))
     -- A default is not read again.
     | none, some d => .ok (name, d)
     | none, none => (Accepted.fail .missing).under (.name label)) ::
      Shape.acceptFields origin entries rest

end

namespace RecordType

/-- A record of fields that a caller names by their labels. -/
def make (type : RecordType) (fields : List (Text × Value)) : Accepted Value :=
  type.shape.accept .caller (.dict (Value.joinEntries (fields.map fun f => (.text f.1, f.2))))

def ofJson (type : RecordType) (j : Json) : Accepted Value := type.shape.accept .document j.toValue

/-- The fields of a record after one of them, known by its name, is set to what its shape makes of a
value. -/
def assign (type : RecordType) (name : Text) (value : Value) (fields : List (Text × Value)) :
    Accepted (List (Text × Value)) :=
  if type.isFrozen then (Accepted.fail .frozen).under (.name name)
  else match type.fields.find? fun f => f.name = name with
    | none => (Accepted.fail .noSuchField).under (.name name)
    | some f =>
      Accepted.under (.name name) ((f.shape.accept .caller value).map fun v =>
        fields.map fun g => if g.1 = name then (name, v) else g)

end RecordType

end CanonStore
