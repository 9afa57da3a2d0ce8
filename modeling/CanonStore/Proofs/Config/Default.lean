import CanonStore.Config.Default
import CanonStore.Proofs.Config.Overlay
import Mathlib.Data.List.Induction

/-!
# The configuration in force, by the history of a process

What the demand for a configuration answers depends on the history alone: on what was last put in force, and
on the changes made to it since. Where nothing was put in force, it is the configuration that the first fruitful
demand has made from the environment of its moment (`Builds`). `run_get` says so for every demand of every run.
-/

namespace CanonStore

namespace Config

/-- The environment alone describes the standard configuration with its settings, if its level is one. -/
theorem ofEnvironment_eq (env : Environment) :
    ofEnvironment env = (standard.levelUnder env).map (standard.under env) := by
  rw [← overlay_standard]
  by_cases henv : env = .empty
  · subst henv
    rfl
  · rw [overlay_of_copyable henv rfl]
    cases standard.levelUnder env <;> rfl

/-- The environment alone describes no configuration exactly if it names a level that there is not. -/
theorem ofEnvironment_eq_error_iff {env : Environment} {fault : ConfigFault} :
    ofEnvironment env = .error fault ↔
      ∃ t, env.logLevel = some t ∧ LogLevel.ofName? t.toUpper = none ∧ fault = .unknownLevel t.toUpper := by
  rw [ofEnvironment_eq, map_eq_error_iff, levelUnder]
  cases hlevel : env.logLevel with
  | none => simp
  | some t =>
    simp only [Option.map_some, Option.getD_some, Option.some.injEq, exists_eq_left']
    exact readLevel_text_eq_error_iff

end Config

open DefaultConfig (Action Outcome)

/-! ## Actions -/

namespace DefaultConfig

/-- The action puts a configuration in force, or none. -/
def Action.IsSet : Action → Prop
  | .set _ | .setAgain _ => True
  | _ => False

/-- The action asks for the configuration in force. -/
def Action.IsDemand : Action → Prop
  | .get | .change _ => True
  | _ => False

/-- The environment after an action. -/
def Action.envAfter (env : Environment) : Action → Environment
  | .changeEnvironment other => other
  | _ => env

/-- The environment after a run. -/
def envAfter (env : Environment) (run : List Action) : Environment := run.foldl Action.envAfter env

/-- The state after a run. -/
def after (s : DefaultConfig) (run : List Action) : DefaultConfig := run.foldl (fun t a => (t.step a).1) s

end DefaultConfig

/-- A configuration in force after an action that leaves it there: only changes in place make a difference. -/
def HeldConfig.step (h : HeldConfig) : Action → HeldConfig
  | .change f => { h with config := f h.config }
  | .alter number f => if number = h.number then { h with config := f h.config } else h
  | _ => h

/-- A configuration after all changes in place of a run that leaves it in force. -/
def HeldConfig.after (h : HeldConfig) (run : List Action) : HeldConfig := run.foldl HeldConfig.step h

namespace DefaultConfig

section Steps

variable {s : DefaultConfig} {a : Action} {h : HeldConfig} {c : Config}

theorem inForce?_eq_some_iff :
    s.inForce? = some h ↔ s.held = some h.number ∧ s.known[h.number]? = some h.config := by
  obtain ⟨number, config⟩ := h
  simp only [inForce?, known?, Option.bind_eq_some_iff, Option.map_eq_some_iff, HeldConfig.mk.injEq]
  constructor
  · rintro ⟨_, hheld, _, hknown, rfl, rfl⟩
    exact ⟨hheld, hknown⟩
  · rintro ⟨hheld, hknown⟩
    exact ⟨number, hheld, config, hknown, rfl, rfl⟩

/-- A configuration that was put in force is in force, under a new number. -/
theorem inForce?_hold (s : DefaultConfig) (c : Config) : (s.hold c).inForce? = some ⟨s.known.length, c⟩ := by
  rw [inForce?_eq_some_iff]
  exact ⟨rfl, List.getElem?_concat_length⟩

/-- To alter an object is to alter the configuration in force exactly if this is the object. -/
theorem inForce?_alter_of_some (hs : s.inForce? = some h) (number : Nat) (f : Config → Config) :
    (s.alter number f).inForce? = some (h.step (.alter number f)) := by
  rw [inForce?_eq_some_iff] at hs ⊢
  obtain ⟨hheld, hknown⟩ := hs
  by_cases hnumber : number = h.number
  · subst hnumber
    have hstep : h.step (.alter h.number f) = { h with config := f h.config } := if_pos rfl
    rw [hstep]
    refine ⟨hheld, ?_⟩
    rw [alter, List.getElem?_modify_eq, hknown]
    rfl
  · have hstep : h.step (.alter number f) = h := if_neg hnumber
    rw [hstep]
    refine ⟨hheld, ?_⟩
    exact (List.getElem?_modify_ne f s.known hnumber).trans hknown

/-- Where nothing is in force, altering an object puts nothing in force. -/
theorem inForce?_alter_of_none (hs : s.inForce? = none) (number : Nat) (f : Config → Config) :
    (s.alter number f).inForce? = none := by
  simp only [inForce?, known?, Option.bind_eq_none_iff, Option.map_eq_none_iff, alter,
    List.getElem?_eq_none_iff, List.length_modify] at hs ⊢
  exact hs

/-! ## One step -/

/-- The configuration in force is what a demand gets, and nothing changes. -/
theorem demand_of_some (hs : s.inForce? = some h) : s.demand = .ok (h, s) := by
  rw [demand, hs]

/-- Where nothing is in force, a demand puts the configuration of the environment in force. -/
theorem demand_of_none (hs : s.inForce? = none) :
    s.demand = (Config.ofEnvironment s.env).map fun c => (⟨s.known.length, c⟩, s.hold c) := by
  rw [demand, hs]

/-- What is in force stays there until a configuration is set, with the changes made in place. -/
theorem inForce?_step_of_some (hs : s.inForce? = some h) (ha : ¬ a.IsSet) :
    (s.step a).1.inForce? = some (h.step a) := by
  cases a with
  | get =>
    rw [step, demand_of_some hs]
    exact hs
  | set => exact absurd trivial ha
  | setAgain => exact absurd trivial ha
  | changeEnvironment => exact hs
  | change f =>
    have hself : h.step (.alter h.number f) = h.step (.change f) := if_pos rfl
    rw [step, demand_of_some hs]
    exact (inForce?_alter_of_some hs h.number f).trans (congrArg some hself)
  | alter number f => exact inForce?_alter_of_some hs number f

/-- A fruitful demand makes a configuration if there is none. -/
theorem inForce?_step_of_demand (hs : s.inForce? = none) (ha : a.IsDemand)
    (hc : Config.ofEnvironment s.env = .ok c) :
    (s.step a).1.inForce? = some (HeldConfig.step ⟨s.known.length, c⟩ a) := by
  have hdemand : s.demand = .ok (⟨s.known.length, c⟩, s.hold c) := by
    rw [demand_of_none hs, hc]
    rfl
  -- From here on the configuration that was made is in force, and the action finds it there.
  have hhold := inForce?_hold s c
  cases a with
  | get =>
    rw [step, hdemand]
    exact hhold
  | change f =>
    have hself : HeldConfig.step ⟨s.known.length, c⟩ (.alter s.known.length f) =
        HeldConfig.step ⟨s.known.length, c⟩ (.change f) := if_pos rfl
    rw [step, hdemand]
    exact (inForce?_alter_of_some hhold s.known.length f).trans (congrArg some hself)
  | _ => exact ha.elim

/-- Nothing comes in force without a fruitful demand, nor does the process get to know a configuration. -/
theorem inForce?_step_of_none (hs : s.inForce? = none) (ha : ¬ a.IsSet)
    (hnone : a.IsDemand → ∀ c, Config.ofEnvironment s.env ≠ .ok c) :
    (s.step a).1.inForce? = none ∧ (s.step a).1.known.length = s.known.length := by
  -- A demand makes the configuration of the environment, and there is none.
  have hdemand : a.IsDemand → ∃ fault, s.demand = .error fault := by
    intro hask
    rw [demand_of_none hs]
    cases henv : Config.ofEnvironment s.env with
    | ok c => exact absurd henv (hnone hask c)
    | error fault => exact ⟨fault, rfl⟩
  cases a with
  | get =>
    obtain ⟨fault, hfault⟩ := hdemand trivial
    rw [step, hfault]
    exact ⟨hs, rfl⟩
  | set => exact absurd trivial ha
  | setAgain => exact absurd trivial ha
  | changeEnvironment => exact ⟨hs, rfl⟩
  | change f =>
    obtain ⟨fault, hfault⟩ := hdemand trivial
    rw [step, hfault]
    exact ⟨hs, rfl⟩
  | alter number f => exact ⟨inForce?_alter_of_none hs number f, List.length_modify ..⟩

/-- A demand leaves the environment as it is. -/
theorem env_of_demand {t : DefaultConfig} (hdemand : s.demand = .ok (h, t)) : t.env = s.env := by
  cases hs : s.inForce? with
  | some _ =>
    rw [demand_of_some hs] at hdemand
    cases hdemand
    rfl
  | none =>
    rw [demand_of_none hs] at hdemand
    obtain ⟨c, _, heq⟩ := map_eq_ok_iff.mp hdemand
    cases heq
    rfl

/-- Only the actions that set variables change the environment. -/
theorem env_step (s : DefaultConfig) (a : Action) : (s.step a).1.env = a.envAfter s.env := by
  -- A demand may keep what it has made, but the environment is only changed from outside.
  cases a with
  | get =>
    cases hdemand : s.demand with
    | ok o =>
      rw [step, hdemand]
      exact env_of_demand hdemand
    | error fault =>
      rw [step, hdemand]
      rfl
  | set c? => cases c? <;> rfl
  | setAgain => rfl
  | changeEnvironment => rfl
  | change f =>
    cases hdemand : s.demand with
    | ok o =>
      have henv : o.2.env = s.env := env_of_demand hdemand
      rw [step, hdemand]
      exact henv
    | error fault =>
      rw [step, hdemand]
      rfl
  | alter => rfl

end Steps

/-! ## Runs -/

section Runs

variable {s : DefaultConfig} {run : List Action} {a : Action} {h : HeldConfig}

theorem after_concat (s : DefaultConfig) (run : List Action) (a : Action) :
    s.after (run ++ [a]) = ((s.after run).step a).1 := by
  rw [after, List.foldl_append]
  rfl

theorem after_append (s : DefaultConfig) (run others : List Action) :
    s.after (run ++ others) = (s.after run).after others := by
  rw [after, List.foldl_append]
  rfl

theorem env_after (s : DefaultConfig) (run : List Action) : (s.after run).env = envAfter s.env run := by
  induction run generalizing s with
  | nil => rfl
  | cons a rest ih =>
    show ((s.step a).1.after rest).env = envAfter (a.envAfter s.env) rest
    rw [ih, env_step]

/-- A run answers step by step, each step from the state that those before it have left. -/
theorem run_append (s : DefaultConfig) (xs ys : List Action) :
    (s.run (xs ++ ys)).2 = (s.run xs).2 ++ ((s.after xs).run ys).2 := by
  induction xs generalizing s with
  | nil => rfl
  | cons a rest ih => exact congrArg ((s.step a).2 :: ·) (ih (s.step a).1)

/-- Every action has its answer. -/
theorem length_run (s : DefaultConfig) (run : List Action) : (s.run run).2.length = run.length := by
  induction run generalizing s with
  | nil => rfl
  | cons a rest ih => exact congrArg (· + 1) (ih (s.step a).1)

/-- What is in force stays so during a run that sets nothing. -/
theorem inForce?_after_of_some (hs : s.inForce? = some h) (hrun : ∀ b ∈ run, ¬ b.IsSet) :
    (s.after run).inForce? = some (h.after run) := by
  induction run generalizing s h with
  | nil => exact hs
  | cons a rest ih =>
    obtain ⟨ha, hrest⟩ := List.forall_mem_cons.mp hrun
    exact ih (inForce?_step_of_some hs ha) hrest

/-- No demand of the run finds an environment that describes a configuration. -/
def Fruitless (env : Environment) (run : List Action) : Prop :=
  ∀ before a, before ++ [a] <+: run → a.IsDemand → ∀ c, Config.ofEnvironment (envAfter env before) ≠ .ok c

theorem fruitless_nil (env : Environment) : Fruitless env [] :=
  fun before a h => absurd (List.prefix_nil.mp h) (by simp)

/-- A run is fruitless if all of its demands have failed. -/
theorem fruitless_concat_iff {env : Environment} :
    Fruitless env (run ++ [a]) ↔
      Fruitless env run ∧ (a.IsDemand → ∀ c, Config.ofEnvironment (envAfter env run) ≠ .ok c) := by
  constructor
  · intro h
    exact ⟨fun before b hb => h before b (hb.trans (List.prefix_append run [a])), h run a (List.prefix_refl _)⟩
  · rintro ⟨hrun, ha⟩ before b hb
    rcases List.prefix_concat_iff.mp hb with heq | hb
    · obtain ⟨rfl, hlast⟩ := List.append_inj' heq rfl
      cases hlast
      exact ha
    · exact hrun before b hb

/-- The first fruitful demand of a run, from an environment on, makes a configuration of a number, and this is
what the run makes of it. -/
def Builds (env : Environment) (number : Nat) (run : List Action) (h : HeldConfig) : Prop :=
  ∃ before a rest c, run = before ++ a :: rest ∧ Fruitless env before ∧ a.IsDemand ∧
    Config.ofEnvironment (envAfter env before) = .ok c ∧ h = HeldConfig.after ⟨number, c⟩ (a :: rest)

/-- One more action changes what the run has made as it changes what is in force. -/
theorem Builds.concat {env : Environment} {number : Nat} (hbuilds : Builds env number run h) (a : Action) :
    Builds env number (run ++ [a]) (h.step a) := by
  obtain ⟨before, b, rest, c, rfl, hbefore, hask, hc, rfl⟩ := hbuilds
  refine ⟨before, b, rest ++ [a], c, ?_, hbefore, hask, hc, ?_⟩
  · rw [List.append_assoc, List.cons_append]
  · rw [HeldConfig.after, HeldConfig.after, ← List.cons_append, List.foldl_append]
    rfl

/-- A run that starts with nothing in force and sets nothing: still nothing is in force, or what its first
fruitful demand has made. -/
theorem inForce?_after_of_none (hs : s.inForce? = none) (hrun : ∀ b ∈ run, ¬ b.IsSet) :
    (Fruitless s.env run ∧ (s.after run).inForce? = none ∧ (s.after run).known.length = s.known.length) ∨
      ∃ h, Builds s.env s.known.length run h ∧ (s.after run).inForce? = some h := by
  -- By induction on the run from its end: the last action either finds nothing in force and may be the
  -- first fruitful demand, or the configuration is there already and is only altered.
  induction run using List.reverseRecOn with
  | nil => exact .inl ⟨fruitless_nil s.env, hs, rfl⟩
  | append_singleton run a ih =>
    rw [List.forall_mem_append, List.forall_mem_singleton] at hrun
    obtain ⟨hrun, ha⟩ := hrun
    rw [after_concat]
    rcases ih hrun with ⟨hfruitless, hnone, hlength⟩ | ⟨h, hbuilds, hsome⟩
    · by_cases hfruitful : a.IsDemand ∧ ∃ c, Config.ofEnvironment (s.after run).env = .ok c
      · obtain ⟨hask, c, hc⟩ := hfruitful
        refine .inr ⟨_, ⟨run, a, [], c, rfl, hfruitless, hask, ?_, rfl⟩, ?_⟩
        · rwa [env_after] at hc
        · rw [inForce?_step_of_demand hnone hask hc, hlength]
          rfl
      · have hstill : a.IsDemand → ∀ c, Config.ofEnvironment (s.after run).env ≠ .ok c :=
          fun hask c hc => hfruitful ⟨hask, c, hc⟩
        obtain ⟨hnone', hlength'⟩ := inForce?_step_of_none hnone ha hstill
        rw [env_after] at hstill
        exact .inl ⟨fruitless_concat_iff.mpr ⟨hfruitless, hstill⟩, hnone', hlength'.trans hlength⟩
    · exact .inr ⟨h.step a, hbuilds.concat a, inForce?_step_of_some hsome ha⟩

/-! ## What a demand answers -/

/-- What is in force at the end of a run that is empty or ends with an action that sets. -/
inductive Placed (s : DefaultConfig) : List Action → Option HeldConfig → Prop where
  | start : Placed s [] s.inForce?
  | new (earlier : List Action) (c : Config) :
      Placed s (earlier ++ [.set (some c)]) (some ⟨(s.after earlier).known.length, c⟩)
  | nothing (earlier : List Action) : Placed s (earlier ++ [.set none]) none
  | again (earlier : List Action) (number : Nat) :
      Placed s (earlier ++ [.setAgain number]) ((s.after earlier).known? number)

/-- What was placed is in force. -/
theorem inForce?_of_placed {placed : Option HeldConfig} (h : Placed s run placed) :
    (s.after run).inForce? = placed := by
  cases h with
  | start => rfl
  | new earlier c =>
    rw [after_concat]
    exact inForce?_hold _ c
  | nothing earlier =>
    rw [after_concat]
    rfl
  | again earlier number =>
    rw [after_concat]
    rfl

/-- Every past divides into what led to the last setting, and what came since. -/
theorem exists_placed (s : DefaultConfig) (past : List Action) :
    ∃ before since placed, past = before ++ since ∧ Placed s before placed ∧ ∀ a ∈ since, ¬ a.IsSet := by
  -- The run is cut after the last action that sets a configuration, if there is one.
  induction past using List.reverseRecOn with
  | nil => exact ⟨[], [], _, rfl, .start, by simp⟩
  | append_singleton past a ih =>
    have hset : ∀ {placed}, Placed s (past ++ [a]) placed →
        ∃ before since placed, past ++ [a] = before ++ since ∧ Placed s before placed ∧
          ∀ b ∈ since, ¬ b.IsSet :=
      fun hplaced => ⟨past ++ [a], [], _, (List.append_nil _).symm, hplaced, by simp⟩
    have hleave (ha : ¬ a.IsSet) :
        ∃ before since placed, past ++ [a] = before ++ since ∧ Placed s before placed ∧
          ∀ b ∈ since, ¬ b.IsSet := by
      obtain ⟨before, since, placed, rfl, hplaced, hsince⟩ := ih
      refine ⟨before, since ++ [a], placed, List.append_assoc .., hplaced, ?_⟩
      rw [List.forall_mem_append, List.forall_mem_singleton]
      exact ⟨hsince, ha⟩
    cases a with
    | set c? =>
      cases c? with
      | some c => exact hset (.new past c)
      | none => exact hset (.nothing past)
    | setAgain number => exact hset (.again past number)
    | _ => exact hleave id

/-- What the demand for the configuration answers after a past. -/
inductive Answers (s : DefaultConfig) (past : List Action) : Outcome → Prop where
  /-- A configuration was set: it is the answer, with the changes made to it since then. -/
  | placed {before since : List Action} {h : HeldConfig} (hpast : past = before ++ since)
      (hbefore : Placed s before (some h)) (hsince : ∀ a ∈ since, ¬ a.IsSet) :
      Answers s past (.ok (some (h.after since)))
  /-- None was set: the answer is the one that the first fruitful demand has made, be it this one. -/
  | made {before since : List Action} {h : HeldConfig} (hpast : past = before ++ since)
      (hbefore : Placed s before none) (hsince : ∀ a ∈ since, ¬ a.IsSet)
      (hmade : Builds (s.after before).env (s.after before).known.length (since ++ [.get]) h) :
      Answers s past (.ok (some h))
  /-- None was set, and no demand was fruitful up to this one. -/
  | failed {before since : List Action} {t : Text} (hpast : past = before ++ since)
      (hbefore : Placed s before none) (hsince : ∀ a ∈ since, ¬ a.IsSet)
      (hnone : Fruitless (s.after before).env (since ++ [.get]))
      (hlevel : (s.after past).env.logLevel = some t) (hunknown : LogLevel.ofName? t.toUpper = none) :
      Answers s past (.error (.unknownLevel t.toUpper))

/-- A demand answers what its past says. It leaves in force what it answers, and if it fails it changes nothing:
nothing is in force then, and the next demand turns to the environment again. -/
theorem step_get (s : DefaultConfig) (past : List Action) :
    Answers s past ((s.after past).step .get).2 ∧
      match ((s.after past).step .get).2 with
      | .ok answer => ((s.after past).step .get).1.inForce? = answer
      | .error _ => (s.after past).inForce? = none ∧ ((s.after past).step .get).1 = s.after past := by
  obtain ⟨before, since, placed, hpast, hplaced, hsince⟩ := exists_placed s past
  have hafter : s.after past = (s.after before).after since := by
    rw [hpast, after_append]
  have hstart := inForce?_of_placed hplaced
  -- What was last placed decides: a configuration is in force since then, while without one it depends on
  -- the demands since then.
  cases placed with
  | some h =>
    have hnow : (s.after past).inForce? = some (h.after since) := by
      rw [hafter]
      exact inForce?_after_of_some hstart hsince
    rw [step, demand_of_some hnow]
    exact ⟨.placed hpast hplaced hsince, hnow⟩
  | none =>
    rcases inForce?_after_of_none hstart hsince with ⟨hfruitless, hnone, hlength⟩ | ⟨h, hmade, hsome⟩
    · -- No demand was fruitful up to now, so this one makes the configuration or fails as they did.
      rw [← hafter] at hnone hlength
      have henv : (s.after past).env = envAfter (s.after before).env since := by
        rw [hafter, env_after]
      rw [step, demand_of_none hnone]
      cases hc : Config.ofEnvironment (s.after past).env with
      | ok c =>
        refine ⟨.made hpast hplaced hsince ?_, inForce?_hold _ c⟩
        rw [hlength]
        exact ⟨since, .get, [], c, rfl, hfruitless, trivial, henv ▸ hc, rfl⟩
      | error fault =>
        obtain ⟨t, hlevel, hunknown, rfl⟩ := Config.ofEnvironment_eq_error_iff.mp hc
        refine ⟨.failed hpast hplaced hsince (fruitless_concat_iff.mpr ⟨hfruitless, ?_⟩) hlevel hunknown,
          hnone, rfl⟩
        intro _ c hc'
        rw [henv, hc'] at hc
        cases hc
    · -- An earlier demand has made the configuration, and this one finds it.
      rw [← hafter] at hsome
      rw [step, demand_of_some hsome]
      exact ⟨.made hpast hplaced hsince (hmade.concat .get), hsome⟩

/-- Every demand of every run answers what its past says, whatever the run goes on to do. If it fails, nothing is
in force at that moment, and it leaves everything as it was. -/
theorem run_get (s : DefaultConfig) (past future : List Action) :
    ∃ o, (s.run (past ++ .get :: future)).2[past.length]? = some o ∧ Answers s past o ∧
      match o with
      | .ok answer => (s.after (past ++ [.get])).inForce? = answer
      | .error _ => (s.after past).inForce? = none ∧ s.after (past ++ [.get]) = s.after past := by
  refine ⟨((s.after past).step .get).2, ?_, ?_⟩
  · rw [run_append, ← length_run s past, List.getElem?_append_right (Nat.le_refl _), Nat.sub_self]
    rfl
  · rw [after_concat]
    exact step_get s past

end Runs
end DefaultConfig

end CanonStore
