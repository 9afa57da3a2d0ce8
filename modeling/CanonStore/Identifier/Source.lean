import CanonStore.Identifier
import CanonStore.Fault

/-!
# Identifiers from a random source

`Identifier.issue` makes an identifier of what a random source answers, `Identifier.issueFrom` asks a source, and
`Identifier.issueWith` asks the source that a caller gives or that of the system. A source that fails as a system
does, or that answers with another number of octets than asked, is reported; such a report is fatal. Any other
failure of the source passes as it is.
-/

namespace CanonStore.Identifier

/-- The failure is one that sources of random octets are known for. -/
def isSourceFailure (fault : CanonStore.Fault) : Bool :=
  match fault.kind? with
  | some (.system _) | some .notImplemented => true
  | _ => false

def Fault.logText? : Fault CanonStore.Fault → Option Text
  | .sourceFailed cause =>
    if isSourceFailure cause then
      cause.wording.toOption.map fun text => "Secure random source unavailable: " ++ text
    else none
  | .wrongSize actual =>
    some ("Secure random source returned " ++ Numeral.ofNat actual ++ " of " ++ Numeral.ofNat size ++
      " bytes")

def Fault.toFault : Fault CanonStore.Fault → CanonStore.Fault
  | .sourceFailed cause =>
    if isSourceFailure cause then
      match cause.wording with
      | .ok text =>
        .located .randomSource ("Error generating UUID: secure random source unavailable: " ++ text) none
          (some cause) []
      -- Without a wording of its cause there is no report.
      | .error fault => fault
    else cause
  | .wrongSize actual =>
    .located .randomSource
      ("Error generating UUID: short read from random source (" ++ Numeral.ofNat actual ++ " of " ++
        Numeral.ofNat size ++ " bytes)")
      none none [(.text "expected", .int size), (.text "actual", .int actual)]

/-- The identifier made of what a source answered when it was asked for `size` octets. -/
def issue (answer : Except CanonStore.Fault Bytes) : Except CanonStore.Fault Text :=
  (generate answer).mapError Fault.toFault

/-- The identifier made of what a source answers, and the state that this leaves the source in. -/
def issueFrom {σ : Type} (source : Source σ CanonStore.Fault) (s : σ) : Except CanonStore.Fault Text × σ :=
  let (made, s') := draw source s
  (made.mapError Fault.toFault, s')

/-- A source that a caller gives. It is any object that can be called, and whether it counts as true may depend on
its state: a pool of octets that has a size does not while it is empty. -/
structure GivenSource (σ : Type) where
  ask : Source σ CanonStore.Fault
  isTrue : σ → Bool

/-- The source that is asked: the one that a caller gives if it counts as true, and that of the system otherwise. -/
def chosen {σ : Type} (given : Option (GivenSource σ)) (system : Source σ CanonStore.Fault) (s : σ) :
    Source σ CanonStore.Fault :=
  match given with
  | some source => if source.isTrue s then source.ask else system
  | none => system

/-- The identifier made of what the source that is asked answers. -/
def issueWith {σ : Type} (given : Option (GivenSource σ)) (system : Source σ CanonStore.Fault) (s : σ) :
    Except CanonStore.Fault Text × σ :=
  issueFrom (chosen given system s) s

end CanonStore.Identifier
