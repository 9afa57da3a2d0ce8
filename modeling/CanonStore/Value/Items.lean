import CanonStore.Value.Display

/-!
# Values as sequences

`Value.items` lists what a container, a text or a run of octets holds; `Value.entries` reads a value
as the entries of a dictionary. A value that is no sequence is refused by name.
-/

namespace CanonStore.Value

/-- The name of the type of a value, with the module of those types that are not built in. -/
def qualifiedTypeName : Value → Text
  | .moment _ => "datetime.datetime"
  | .date _ => "datetime.date"
  | .foreign .decimal => "decimal.Decimal"
  | .foreign .timedelta => "datetime.timedelta"
  | v => v.typeName

/-- The wording for a value that is no sequence. -/
def notIterableText (v : Value) : Text := "'" ++ v.qualifiedTypeName ++ "' object is not iterable"

/-- What a value holds, in order: items, keys, fields with their names, code points or octets. A value
that is no sequence is none. -/
def items? : Value → Option (List Value)
  | .list xs | .tuple xs => some xs
  | .dict es => some (es.map (·.1))
  | .text t | .textMember _ t => some (t.map fun c => .text [c])
  | .bytes b | .bytearray b => some (b.map fun x => .int x.toNat)
  | .record _ fields => some (fields.map fun f => .tuple [.text f.1, f.2])
  | .foreign .set | .foreign .frozenset | .foreign .range | .foreign .memoryview => some []
  | .endless .list => some [.endless .list]
  | .endless .dict => some [.text "self"]
  | _ => none

/-- Why a value cannot be read as the entries of a dictionary. -/
inductive EntriesFault where
  | notIterable (v : Value)
  | noSequence (index : Nat)
  | wrongLength (index length : Nat)

def EntriesFault.message : EntriesFault → Text
  | .notIterable v => v.notIterableText
  | .noSequence i =>
    "cannot convert dictionary update sequence element #" ++ Numeral.ofNat i ++ " to a sequence"
  | .wrongLength i n =>
    "dictionary update sequence element #" ++ Numeral.ofNat i ++ " has length " ++ Numeral.ofNat n ++
      "; 2 is required"

/-- Reads each item as a key and a value; the first item has the given index. -/
def pairs (index : Nat) : List Value → Except EntriesFault (List (Value × Value))
  | [] => .ok []
  | v :: rest =>
    match v.items? with
    | none => .error (.noSequence index)
    | some [key, value] => (pairs (index + 1) rest).map ((key, value) :: ·)
    | some parts => .error (.wrongLength index parts.length)

/-- The entries of a dictionary, or the pairs that a sequence lists. -/
def entries : Value → Except EntriesFault (List (Value × Value))
  | .dict es => .ok es
  | v =>
    match v.items? with
    | none => .error (.notIterable v)
    | some parts => (pairs 0 parts).map joinEntries

end CanonStore.Value
