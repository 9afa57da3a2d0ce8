import CanonStore.Command
import CanonStore.Config.File
import CanonStore.FileSystem.Directory
import CanonStore.Identifier.Source
import CanonStore.Store
import CanonStore.Timestamp

/-!
# What the program works on

The program runs in a *world*: files, an environment, a source of random octets and a clock. A command
leaves an *outcome*: an exit code or a fault, the world afterwards, what it logged and what it printed.
-/

namespace CanonStore

/-- A source of random octets that may run dry. -/
structure Entropy where
  octets : Bytes
  /-- How the source fails when nothing is left. -/
  whenDry : Fault

/-- Asks for octets: as many as are left, at most the given number. -/
def Entropy.take (e : Entropy) (count : Nat) : Except Fault Bytes × Entropy :=
  if e.octets.isEmpty then (.error e.whenDry, e)
  else (.ok (e.octets.take count), { e with octets := e.octets.drop count })

/-- The octets of the world as a source that identifiers are drawn from. -/
def Entropy.source : Identifier.Source Entropy Fault := fun count e => e.take count

/-- What the program finds when it starts. -/
structure World where
  files : FileSystem
  env : Environment
  entropy : Entropy
  /-- The clock: nanoseconds since the epoch. -/
  now : Int

/-- The texts of the program that say nothing about its work. -/
structure Wording where
  help : Text
  usage : Text
  /-- What stands in front of a log line. -/
  stamp : Text
  /-- What stands in front of a fault when debugging. -/
  trace : Text

/-- Exit codes. -/
inductive ExitCode where
  | success
  | failure
  | misuse
  | fatal
deriving DecidableEq

def ExitCode.number : ExitCode → Nat
  | .success => 0
  | .failure => 1
  | .misuse => 2
  | .fatal => 3

/-- What a command leaves behind. -/
structure Outcome where
  result : Except Fault ExitCode
  world : World
  log : List LogRecord
  out : Text
  err : Text

namespace Outcome

def printed (w : World) (t : Text) : Outcome := ⟨.ok .success, w, [], t, []⟩

def refused (w : World) (message : Text) : Outcome := ⟨.ok .failure, w, [], [], "Error: " ++ message ++ "\n"⟩

def failed (w : World) (fault : Fault) : Outcome := ⟨.error fault, w, [], [], []⟩

/-- A command that goes on after an operation on files, if that succeeds. -/
def after {α : Type} (w : World) (e : Effect α) (next : World → α → Outcome) : Outcome :=
  let then_ : World := { w with files := e.files }
  match e.result with
  | .error fault => { failed then_ fault with log := e.log }
  | .ok a =>
    let o := next then_ a
    { o with log := e.log ++ o.log }

end Outcome

end CanonStore
