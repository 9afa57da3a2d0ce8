import CanonStore.Config

/-!
# The configuration in force

A process gets to know configurations one after the other, and tells them apart by their numbers. At
most one of them is in force. It is the one that was last set; if none is set, the first demand makes
one from the environment and keeps it. `DefaultConfig.step` is one step of such a process, and
`DefaultConfig.run` a whole run.
-/

namespace CanonStore

/-- A configuration, told apart from equal ones by a number. -/
structure HeldConfig where
  number : Nat
  config : Config

/-- All configurations that there have been, which of them is in force, and the environment. -/
structure DefaultConfig where
  /-- The configurations as they are now. The number of each is its place. -/
  known : List Config
  /-- The number of the configuration in force. -/
  held : Option Nat
  env : Environment

namespace DefaultConfig

/-- Nothing in force, and nothing in the environment. -/
def initial : DefaultConfig := ⟨[], none, .empty⟩

/-- What can happen. -/
inductive Action where
  /-- The configuration in force is asked for. -/
  | get
  /-- A configuration that has not been there before is put in force, or none is. -/
  | set (config : Option Config)
  /-- The configuration of a number is put in force again. -/
  | setAgain (number : Nat)
  /-- The environment changes. -/
  | changeEnvironment (env : Environment)
  /-- The configuration in force is asked for, and changed in place. -/
  | change (f : Config → Config)
  /-- The configuration of a number is changed in place, be it in force or not. -/
  | alter (number : Nat) (f : Config → Config)

/-- The configuration in force is asked for, and its debug switch is set to a value. -/
def Action.setDebug (v : Value) : Action := .change fun c => { c with debug := v }

def known? (s : DefaultConfig) (number : Nat) : Option HeldConfig := s.known[number]?.map (⟨number, ·⟩)

/-- The configuration in force. -/
def inForce? (s : DefaultConfig) : Option HeldConfig := s.held.bind s.known?

/-- Puts a configuration in force that has not been there before. -/
def hold (s : DefaultConfig) (c : Config) : DefaultConfig :=
  { s with known := s.known ++ [c], held := some s.known.length }

def alter (s : DefaultConfig) (number : Nat) (f : Config → Config) : DefaultConfig :=
  { s with known := s.known.modify number f }

/-- The configuration in force, made from the environment if there is none. -/
def demand (s : DefaultConfig) : Except ConfigFault (HeldConfig × DefaultConfig) :=
  match s.inForce? with
  | some h => .ok (h, s)
  | none => (Config.ofEnvironment s.env).map fun c => (⟨s.known.length, c⟩, s.hold c)

/-- What a step answers: the configuration asked for, nothing, or the fault that stopped it. -/
abbrev Outcome := Except ConfigFault (Option HeldConfig)

/-- One step. A demand that fails changes nothing. -/
def step (s : DefaultConfig) : Action → DefaultConfig × Outcome
  | .get =>
    match s.demand with
    | .ok (h, t) => (t, .ok (some h))
    | .error fault => (s, .error fault)
  | .set none => ({ s with held := none }, .ok none)
  | .set (some c) => (s.hold c, .ok none)
  | .setAgain number => ({ s with held := some number }, .ok none)
  | .changeEnvironment env => ({ s with env }, .ok none)
  -- What a demand makes from the environment is kept, and then changed in place.
  | .change f =>
    match s.demand with
    | .ok (h, t) => (t.alter h.number f, .ok none)
    | .error fault => (s, .error fault)
  | .alter number f => (s.alter number f, .ok none)

/-- The state after a run, and what its steps answered. -/
def run (s : DefaultConfig) : List Action → DefaultConfig × List Outcome
  | [] => (s, [])
  | a :: rest =>
    let (t, o) := s.step a
    let (u, os) := run t rest
    (u, o :: os)

end DefaultConfig

end CanonStore
