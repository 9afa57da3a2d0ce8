import CanonStore.Text

/-!
# Log records

What an operation reports about its work: how serious it is, which part of the program says it, and a
message. `LogRecord.text` is the line of a record.
-/

namespace CanonStore

/-- How serious a record is. -/
inductive LogLevel where
  | debug
  | info
  | warning
  | error
  | critical
deriving DecidableEq

namespace LogLevel

def name : LogLevel → Text
  | .debug => "DEBUG"
  | .info => "INFO"
  | .warning => "WARNING"
  | .error => "ERROR"
  | .critical => "CRITICAL"

def all : List LogLevel := [.debug, .info, .warning, .error, .critical]

def ofName? (t : Text) : Option LogLevel := all.find? fun l => l.name = t

def rank : LogLevel → Nat
  | .debug => 10
  | .info => 20
  | .warning => 30
  | .error => 40
  | .critical => 50

end LogLevel

/-- A record of the log. -/
structure LogRecord where
  level : LogLevel
  /-- The part of the program that speaks. -/
  source : Text
  message : Text
deriving DecidableEq

def LogRecord.text (r : LogRecord) : Text := "[" ++ r.level.name ++ "] " ++ r.source ++ ": " ++ r.message

end CanonStore
