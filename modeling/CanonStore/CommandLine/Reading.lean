import CanonStore.CommandLine.Word

/-!
# Reading command lines

Words are taken from the left. An option takes its value from its own word or from the next, which has
to be an operand; short options that stand alone may share a word. The first operands go where the
grammar wants them, and what nobody wants is left over.
-/

namespace CanonStore.CommandLine

variable {σ ρ : Type}

/-- The options that one word names. -/
structure Cluster (σ : Type) where
  /-- Complete options with their values, in order. -/
  complete : List (OptionForm σ × Text)
  /-- An option whose value is the next word. -/
  open? : Option (OptionForm σ)
  /-- A rest of the word that names no option. -/
  leftOver : List Text

def Cluster.cons (f : OptionForm σ) (c : Cluster σ) : Cluster σ := { c with complete := (f, []) :: c.complete }

def clusterOf (f : OptionForm σ) : Cluster σ :=
  if f.takesValue then ⟨[], some f, []⟩ else ⟨[(f, [])], none, []⟩

/-- A short option followed by the rest of its word, which stands after `=` or directly after it. -/
def shortCluster (g : Grammar σ ρ) (f : OptionForm σ) (bySign : Bool) : Text → Except Stop (Cluster σ)
  -- A value given after the sign may be empty; an option that takes none may not have the sign.
  | [] => if f.takesValue then .ok ⟨[(f, [])], none, []⟩ else .error .misuse
  | c :: rest =>
    if f.takesValue then .ok ⟨[(f, c :: rest)], none, []⟩
    else if bySign || c = 0x2D then .error .misuse
    else match g.option? [0x2D, c], rest with
      -- The rest of the word is no option. It is kept as a word with a hyphen of its own.
      | none, _ => .ok ⟨[(f, [])], none, [0x2D :: c :: rest]⟩
      | some next, [] => .ok ((clusterOf next).cons f)
      | some next, 0x3D :: value => (shortCluster g next true value).map (Cluster.cons f)
      | some next, rest => (shortCluster g next false rest).map (Cluster.cons f)

def cluster (g : Grammar σ ρ) (n : Naming σ) : Except Stop (Cluster σ) :=
  match n.attached with
  | none => .ok (clusterOf n.form)
  | some a =>
    if !Word.isLong n.name then shortCluster g n.form a.bySign a.value
    else if n.form.takesValue then .ok ⟨[(n.form, a.value)], none, []⟩
    else .error .misuse

/-- How far the reading has come. -/
structure Progress (σ : Type) where
  draft : σ
  /-- The operand of the grammar has been given. -/
  operandGiven : Bool
  /-- The word before was that operand, so a divider here belongs to it. -/
  atOperand : Bool
  leftOver : List Text

namespace Progress

/-- The reading of a draft before the first word. -/
def start (s : σ) : Progress σ := ⟨s, false, false, []⟩

def applyAll (s : σ) : List (OptionForm σ × Text) → Except Stop σ
  | [] => .ok s
  | (f, value) :: rest => do applyAll (← f.apply s value) rest

def leave (p : Progress σ) (words : List Text) : Progress σ :=
  { p with atOperand := false, leftOver := p.leftOver ++ words }

def pass (p : Progress σ) : Progress σ := { p with atOperand := false }

/-- Takes options, and leaves the rest of their word over. -/
def withOptions (p : Progress σ) (options : List (OptionForm σ × Text)) (rest : List Text) :
    Except Stop (Progress σ) :=
  (applyAll p.draft options).map fun s => { p.leave rest with draft := s }

def withOperand (p : Progress σ) (effect : σ → Text → Except Stop σ) (t : Text) :
    Except Stop (Progress σ) :=
  (effect p.draft t).map fun s => { p with draft := s, operandGiven := true, atOperand := true }

end Progress

def readWords (g : Grammar σ ρ) (p : Progress σ) : List (Word σ) → Except Stop (Progress σ)
  | [] => .ok p
  | .unknown t :: rest => readWords g (p.leave [t]) rest
  | .option _ naming :: .operand value :: rest => do
    let c ← cluster g naming
    match c.open? with
    -- The option wants no value: the operand is read again, on its own.
    | none => readWords g (← p.withOptions c.complete c.leftOver) (.operand value :: rest)
    | some f => readWords g (← p.withOptions (c.complete ++ [(f, value)]) []) rest
  -- No operand follows, so an option that still wants its value has none.
  | .option _ naming :: rest => do
    let c ← cluster g naming
    match c.open? with
    | none => readWords g (← p.withOptions c.complete c.leftOver) rest
    | some _ => .error .misuse
  | .operand t :: rest =>
    match p.operandGiven, g.operand with
    | false, .command effect =>
      -- A command takes all words after it as they were written; nothing is left to read here.
      (effect p.draft t (rest.map Word.text)).map fun r => ⟨r.1, true, false, p.leftOver ++ r.2⟩
    | false, .atMostOne effect | false, .one effect => do readWords g (← p.withOperand effect t) rest
    | _, _ => readWords g (p.leave [t]) rest
  | .divider :: rest =>
    if p.atOperand then readWords g p.pass rest
    else match p.operandGiven, g.operand, rest with
      -- The divider would be taken for the name of the command.
      | false, .command _, _ :: _ => .error .misuse
      | false, .atMostOne _, rest => readWords g p.pass rest
      | false, .one _, next :: rest => readWords g p.pass (next :: rest)
      | _, _, rest => readWords g (p.leave [Word.dividerText]) rest

/-- Reads one level of a command line: the result and the words left over. -/
def Grammar.readSome (g : Grammar σ ρ) (arguments : List Text) : Except Stop (ρ × List Text) := do
  let p ← readWords g (.start g.blank) (← Word.classifyAll g arguments)
  return (← g.finish p.draft, p.leftOver)

/-- Reads a whole command line, of which no word may be left over. -/
def Grammar.read (g : Grammar σ ρ) (arguments : List Text) : Except Stop ρ := do
  let (result, leftOver) ← g.readSome arguments
  if leftOver.isEmpty then return result else throw .misuse

end CanonStore.CommandLine
