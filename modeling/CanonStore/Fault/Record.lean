import CanonStore.Schema.Accept

/-!
# Reports as records

A report can be handed on as a record of type `ChainError`, which holds its code, message, details and
judgements, and be made again from such a record.
-/

namespace CanonStore.Report

def parts (r : Report) : List (Text × Value) :=
  [("code", r.code), ("message", r.message), ("details", r.details), ("retryable", r.retryable),
   ("fatal", r.fatal)]

/-- A report as a record. The record wants texts, a dictionary with text keys and truth values. -/
def toRecord (r : Report) : Accepted Value := RecordType.chainError.make r.parts

/-- The report of the fields of a record. Empty details are the empty dictionary. -/
def ofRecord (fields : List (Text × Value)) : Report :=
  let field (name : Text) : Value := (Value.field? name fields).getD .null
  let details := field "details"
  ⟨field "code", field "message", if details.isTrue then details else .dict [], field "retryable",
    field "fatal", none⟩

end CanonStore.Report

namespace CanonStore.Fault

/-- The general fault that a record stands for. -/
def ofRecord (fields : List (Text × Value)) : Fault := .report .chain (Report.ofRecord fields) none

end CanonStore.Fault
