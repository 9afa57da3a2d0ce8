import CanonStore.Text

/-!
# Command lines

What may stand on a command line, at one level of it. A *grammar* over a draft names options, says
what becomes of words that are no options, and makes the result of the draft at the end. Each option
and operand changes the draft, or stops the reading.

The reading itself is in `CommandLine.Reading`.
-/

namespace CanonStore.CommandLine

/-- Why the reading of a command line stops early. -/
inductive Stop where
  /-- Help is asked for. -/
  | help
  /-- The version is asked for. -/
  | version
  /-- The command line does not fit the grammar. -/
  | misuse
deriving DecidableEq

/-- What an option does. -/
inductive OptionEffect (σ : Type) where
  /-- Stands alone. -/
  | alone (effect : σ → Except Stop σ)
  /-- Takes a value. -/
  | withValue (effect : σ → Text → Except Stop σ)

/-- An option, with all its names. -/
structure OptionForm (σ : Type) where
  names : List Text
  effect : OptionEffect σ

/-- What becomes of words that are no options. -/
inductive Operand (σ : Type) where
  | none
  /-- One word may be given. -/
  | atMostOne (effect : σ → Text → Except Stop σ)
  /-- One word has to be given. -/
  | one (effect : σ → Text → Except Stop σ)
  /-- A command takes itself and all words that follow, and may leave some of them over. -/
  | command (effect : σ → Text → List Text → Except Stop (σ × List Text))

/-- What may stand on a command line, for drafts `σ` and results `ρ`. -/
structure Grammar (σ ρ : Type) where
  /-- The draft before the first word. -/
  blank : σ
  options : List (OptionForm σ)
  operand : Operand σ
  /-- The result of a draft that holds all that has to be given. -/
  finish : σ → Except Stop ρ

namespace OptionForm

variable {σ : Type}

def takesValue (f : OptionForm σ) : Bool :=
  match f.effect with
  | .alone _ => false
  | .withValue _ => true

/-- What the option does with a value, which counts only if it takes one. -/
def apply (f : OptionForm σ) (s : σ) (value : Text) : Except Stop σ :=
  match f.effect with
  | .alone effect => effect s
  | .withValue effect => effect s value

def help : OptionForm σ := ⟨["-h", "--help"], .alone fun _ => .error .help⟩

end OptionForm

/-- All names of options, each with its option, in the order of the grammar. -/
def Grammar.names {σ ρ : Type} (g : Grammar σ ρ) : List (Text × OptionForm σ) :=
  g.options.flatMap fun f => f.names.map fun n => (n, f)

def Grammar.option? {σ ρ : Type} (g : Grammar σ ρ) (name : Text) : Option (OptionForm σ) :=
  (g.names.find? fun e => e.1 = name).map (·.2)

end CanonStore.CommandLine
