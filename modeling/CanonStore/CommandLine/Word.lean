import CanonStore.CommandLine
import CanonStore.Text.Digit

/-!
# Words of a command line

Before anything is read, each word is told apart: it is an option, an operand, or the divider `--`,
after which all words are operands. An option may be written by any initial part of a long name that
fits only one, and may hold its value, after `=` or directly after a short name.
-/

namespace CanonStore.CommandLine

/-- A value that is part of the word of an option. -/
structure Attached where
  /-- It stands after `=`. -/
  bySign : Bool
  value : Text

/-- An option as a word names it. -/
structure Naming (σ : Type) where
  name : Text
  form : OptionForm σ
  attached : Option Attached

/-- A word of a command line. -/
inductive Word (σ : Type) where
  | operand (text : Text)
  | option (text : Text) (naming : Naming σ)
  /-- It looks like an option, but there is none of the name. -/
  | unknown (text : Text)
  | divider

namespace Word

variable {σ ρ : Type}

def dividerText : Text := "--"

def text : Word σ → Text
  | .operand t | .option t _ | .unknown t => t
  | .divider => dividerText

def isLong (t : Text) : Bool := Text.isPrefix "--" t

/-- A word before and after its first equals sign. -/
def splitAtSign (t : Text) : Text × Option Attached :=
  match t.dropWhile fun c => c ≠ 0x3D with
  | [] => (t, none)
  | _ :: value => (t.takeWhile fun c => c ≠ 0x3D, some ⟨true, value⟩)

/-- The options that a word may stand for when it is no full name. -/
def candidates (g : Grammar σ ρ) (t : Text) : List (Naming σ) :=
  if isLong t then
    let (start, attached) := splitAtSign t
    (g.names.filter fun e => Text.isPrefix start e.1).map fun e => ⟨e.1, e.2, attached⟩
  else
    g.names.filterMap fun e =>
      -- A short name with its value behind it, or the start of a name with one hyphen.
      if e.1 = t.take 2 then some ⟨e.1, e.2, some ⟨false, t.drop 2⟩⟩
      else if Text.isPrefix t e.1 then some ⟨e.1, e.2, none⟩
      else none

/-- A hyphen and a decimal number. A line feed may follow. -/
def isNegativeNumber (t : Text) : Bool :=
  match t with
  | 0x2D :: rest =>
    let number := if rest.getLast? = some (0x0A : CodePoint) then rest.dropLast else rest
    match number.dropWhile CodePoint.isDecimal with
    | [] => !number.isEmpty
    | 0x2E :: fraction => !fraction.isEmpty && fraction.all CodePoint.isDecimal
    | _ => false
  | _ => false

/-- What a word is when it stands before the divider. Fails if it may be several options. -/
def classify (g : Grammar σ ρ) (t : Text) : Except Stop (Word σ) :=
  match t with
  -- A hyphen alone is an operand like any other single code point.
  | [] | [_] => .ok (.operand t)
  | first :: _ =>
    if first ≠ 0x2D then .ok (.operand t)
    else match g.option? t, splitAtSign t with
      | some f, _ => .ok (.option t ⟨t, f, none⟩)
      | none, (name, attached) =>
        match g.option? name with
        | some f => .ok (.option t ⟨name, f, attached⟩)
        -- Neither the word nor what stands before its sign is a full name: it may still begin one.
        | none =>
          match candidates g t with
          | [naming] => .ok (.option t naming)
          | _ :: _ :: _ => .error .misuse
          -- What looks like a negative number or holds a blank was hardly meant as an option.
          | [] => .ok (if isNegativeNumber t || t.contains 0x20 then .operand t else .unknown t)

def classifyAll (g : Grammar σ ρ) : List Text → Except Stop (List (Word σ))
  | [] => .ok []
  | t :: rest =>
    if t = dividerText then .ok (.divider :: rest.map .operand)
    else do
      let w ← classify g t
      return w :: (← classifyAll g rest)

end Word

end CanonStore.CommandLine
