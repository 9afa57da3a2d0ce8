import CanonStore.Proofs.FileSystem.Frame
import CanonStore.Proofs.Program.Run
import CanonStore.Proofs.Store.Run

/-!
# What a run leaves alone

Apart from the log file a run changes at most one file. `target?` says which one: where `blob write` leads to if
its payload can be read, and where `config --init` leads to if nothing stands there. Every other command has no
target, nor has a run that ends before it performs a command. `run_frame` says so for every command line and
every world: all directories stay as they are, and so do all other files.
-/

namespace CanonStore.Program

open FileSystem

/-! ## Files that may change -/

/-- The path of the log file that a configuration names, if it names one. -/
def logPath? (fs : FileSystem) (v : Value) : Option Text :=
  if !v.isTrue then none
  else match v with
    | .text path => some (absolutePath fs path)
    | .bytes octets => some (absolutePath fs (FilePath.ofOctets octets))
    | _ => none

/-- The place of the log file, if it can be opened. -/
def logPlace? (fs : FileSystem) (v : Value) : Option Place := (logPath? fs v).bind fs.opens?

/-- The place that a command opens a file at to write it. -/
def target? (c : Config) (fs : FileSystem) : Command → Option Place
  | .blobWrite path payload =>
    match payload.octets, c.resolve path with
    | .ok _, .ok p => fs.opens? p.text
    | _, _ => none
  | .configInit path =>
    match fs.hasPath (PathName.normalText path) with
    | .ok false => fs.opens? (PathName.normalText path)
    | _ => none
  | _ => none

/-- The command that a run comes to perform, and the configuration that it has then. -/
def performed? (arguments : List Text) (w : World) : Option (Config × Command) := do
  let i ← (Invocation.read arguments).toOption
  let command ← i.command
  let c ← (loadConfig i.configPath w).1.toOption
  pure (c, command)

section Places

variable {fs gs : FileSystem} {P : Place → Prop} {c : Config} {v : Value} {command : Command} {p : Place}

/-- A blob is written at the place that its path under the base directory leads to, if its payload can be read. -/
theorem target?_blobWrite_eq_some_iff {path : Text} {payload : Payload} :
    target? c fs (.blobWrite path payload) = some p ↔
      ∃ octets q, payload.octets = .ok octets ∧ c.resolve path = .ok q ∧ fs.opens? q.text = some p := by
  show (match payload.octets, c.resolve path with
    | .ok _, .ok q => fs.opens? q.text
    | _, _ => none) = some p ↔ _
  cases payload.octets with
  | error message => simp
  | ok octets =>
    cases c.resolve path with
    | error fault => simp
    | ok q => simp

/-- A configuration file is created where a path leads to nothing. -/
theorem target?_configInit_eq_some_iff {path : Text} :
    target? c fs (.configInit path) = some p ↔
      fs.opens? (PathName.normalText path) = some p ∧ fs.node? p = none := by
  show (match fs.hasPath (PathName.normalText path) with
    | .ok false => fs.opens? (PathName.normalText path)
    | _ => none) = some p ↔ _
  constructor
  · intro h
    split at h
    · next hpath =>
      refine ⟨h, ?_⟩
      rwa [hasPath_of_opens? h, Except.ok.injEq, Option.isSome_eq_false_iff,
        Option.isNone_iff_eq_none] at hpath
    · cases h
  · rintro ⟨hopen, hnone⟩
    rw [hasPath_of_opens? hopen, hnone]
    exact hopen

/-- Where no more can be opened than before, nor more is missing, there are no new targets. -/
theorem target?_of_target? (hopens : ∀ path q, gs.opens? path = some q → fs.opens? path = some q)
    (hnew : ∀ q, gs.node? q = none → fs.node? q = none) (htarget : target? c gs command = some p) :
    target? c fs command = some p := by
  cases command with
  | blobWrite path payload =>
    rw [target?_blobWrite_eq_some_iff] at htarget ⊢
    obtain ⟨octets, q, hoctets, hresolve, hopen⟩ := htarget
    exact ⟨octets, q, hoctets, hresolve, hopens _ _ hopen⟩
  | configInit path =>
    rw [target?_configInit_eq_some_iff] at htarget ⊢
    exact ⟨hopens _ _ htarget.1, hnew p htarget.2⟩
  | _ => cases htarget

end Places

/-! ## One command -/

section Commands

variable {wording : Wording} {c : Config} {w : World} {fs : FileSystem} {path : Text} {p : Place}

/-- Saving changes only the place that is opened. -/
theorem save_sameBut (h : fs.opens? path = some p) (octets : Bytes) :
    SameBut (· = p) fs (Store.save fs path octets none).files := by
  have hframe := replace_sameBut fs Store.fileMode p octets
  have hreplace : Store.replace fs path octets none =
      ((fs.vacate Store.fileMode p).attach p).2.writeAndClose ((fs.vacate Store.fileMode p).attach p).1 octets := by
    rw [Store.replace, Store.openAnew_of_opens? h]
  rw [← hreplace] at hframe
  unfold Store.save
  split
  · next fault files heq =>
    rw [heq] at hframe
    rw [(Store.fail_eq _ _ _ _ _ _).2]
    exact hframe
  · next files heq =>
    rw [heq] at hframe
    exact hframe

/-- Writing a text changes only the place that is opened. -/
theorem writeText_sameBut (h : fs.opens? path = some p) (t : Text) :
    SameBut (· = p) fs (writeText fs path t).2 := by
  unfold writeText
  rw [openFile_replace_of_opens? h]
  exact replace_sameBut fs textFileMode p (Utf8.encodeAny t)

/-- Where nothing can be opened, nothing changes. -/
theorem writeText_of_not_opens? (h : fs.opens? path = none) (t : Text) : (writeText fs path t).2 = fs := by
  obtain ⟨fault, hfault⟩ := openFile_replace_of_not_opens? h textFileMode
  unfold writeText
  rw [hfault]

/-- What comes after an operation on files leaves them as the operation does, if it touches none itself. -/
theorem files_after {α : Type} (e : Effect α) {next : World → α → Outcome}
    (hnext : ∀ w' a, (next w' a).world.files = w'.files) : (Outcome.after w e next).world.files = e.files := by
  unfold Outcome.after
  cases e.result with
  | error fault => rfl
  | ok a => exact hnext _ a

/-- A command that goes on with the octets of a file leaves it as it is. -/
theorem files_withPath_load {next : World → Bytes → Outcome}
    (hnext : ∀ w' octets, (next w' octets).world.files = w'.files) :
    (withPath c w path fun t => .after w (Store.load w.files t) next).world.files = w.files := by
  unfold withPath
  cases c.resolve path with
  | error fault => rfl
  | ok q => exact (files_after _ hnext).trans (Store.files_load w.files q.text)

theorem files_printIdentifiers (count : Nat) (w : World) :
    (printIdentifiers count w).world.files = w.files := by
  induction count generalizing w with
  | zero => rfl
  | succ count ih =>
    rw [printIdentifiers]
    dsimp only
    split
    · rfl
    · exact ih _

theorem files_hash (c : Config) (w : World) (source : DigestSource) (hex : Bool) :
    (hash c w source hex).world.files = w.files := by
  cases source with
  | text t =>
    rw [hash]
    cases Utf8.encode t <;> rfl
  | file path => exact files_withPath_load fun _ _ => rfl

theorem files_identifiers (w : World) (count : Int) : (identifiers w count).world.files = w.files := by
  rw [identifiers]
  split
  · rfl
  · exact files_printIdentifiers count.toNat w

theorem files_now (w : World) (asJson : Bool) : (now w asJson).world.files = w.files := by
  rw [now]
  split
  · rfl
  · split
    · rfl
    · split <;> rfl

theorem files_configShow (c : Config) (w : World) : (configShow c w).world.files = w.files := by
  rw [configShow]
  split <;> rfl

/-- Writing a blob changes only its target. -/
theorem blobWrite_sameBut (c : Config) (w : World) (path : Text) (payload : Payload) :
    SameBut (fun p => target? c w.files (.blobWrite path payload) = some p) w.files
      (blobWrite c w path payload).world.files := by
  simp only [target?_blobWrite_eq_some_iff]
  unfold blobWrite
  cases hoctets : payload.octets with
  | error message => exact .refl _ _
  | ok octets =>
    dsimp only
    rw [withPath]
    cases hresolve : c.resolve path with
    | error fault => exact .refl _ _
    | ok q =>
      dsimp only
      rw [files_after _ fun _ _ => rfl]
      -- If the path cannot be opened nothing is written; otherwise only its file is.
      cases hopen : w.files.opens? q.text with
      | none =>
        rw [(Store.save_of_not_opens? hopen octets).2]
        exact .refl _ _
      | some p =>
        refine (save_sameBut hopen octets).mono ?_
        rintro _ rfl
        exact ⟨octets, q, rfl, rfl, hopen⟩

/-- Writing a configuration file changes only its target. -/
theorem configInit_sameBut (c : Config) (w : World) (path : Text) :
    SameBut (fun p => target? c w.files (.configInit path) = some p) w.files
      (configInit w path).world.files := by
  unfold configInit
  dsimp only
  -- A file of the name, or a path that cannot be looked up, ends the command before it writes.
  split
  · exact .refl _ _
  · exact .refl _ _
  · next hpath =>
    have hwritten : SameBut (fun p => target? c w.files (.configInit path) = some p) w.files
        (writeText w.files (PathName.normalText path) Config.template).2 := by
      cases hopen : w.files.opens? (PathName.normalText path) with
      | none =>
        rw [writeText_of_not_opens? hopen]
        exact .refl _ _
      | some p =>
        refine (writeText_sameBut hopen _).mono ?_
        rintro _ rfl
        rw [target?, hpath]
        exact hopen
    split
    · next hresult =>
      rw [hresult] at hwritten
      exact hwritten
    · next hresult =>
      rw [hresult] at hwritten
      exact hwritten

/-- A command changes its target at most. -/
theorem execute_sameBut (wording : Wording) (c : Config) (w : World) (command : Command) :
    SameBut (fun p => target? c w.files command = some p) w.files
      (execute wording c w command).world.files := by
  -- Only two commands write files; each of the others leaves all of them as they are.
  have hidle : ∀ {files : FileSystem}, files = w.files →
      SameBut (fun p => target? c w.files command = some p) w.files files := by
    rintro _ rfl
    exact .refl _ _
  cases command with
  | hash source hex => exact hidle (files_hash c w source hex)
  | identifiers count => exact hidle (files_identifiers w count)
  | now asJson => exact hidle (files_now w asJson)
  | blobHelp => exact hidle rfl
  | blobWrite path payload => exact blobWrite_sameBut c w path payload
  | blobRead path hex => exact hidle (files_withPath_load fun _ _ => rfl)
  | configInit path => exact configInit_sameBut c w path
  | configShow => exact hidle (files_configShow c w)
  | configUsage => exact hidle rfl

end Commands

/-! ## The log -/

section Log

variable {wording : Wording} {c : Config} {w : World} {fs gs : FileSystem} {P : Place → Prop} {p : Place}

/-- A file that is opened to be extended is provided for and held open. -/
theorem exists_opens?_of_openFile_extend {path : Text} {o : Handle × FileSystem}
    (h : fs.openFile (.extend logFileMode) path = .ok o) :
    ∃ p, fs.opens? path = some p ∧ o = (fs.provide logFileMode p).attach p := by
  have hpurpose : Purpose.extend logFileMode ≠ .read := nofun
  obtain ⟨p, hopen⟩ := Option.isSome_iff_exists.mp ((exists_openFile_iff hpurpose).mp ⟨o, h⟩)
  exact ⟨p, hopen, Except.ok.inj (h.symm.trans (openFile_extend_of_opens? hopen _))⟩

/-- Opening the log provides for its file and holds it open, if there is one. -/
theorem openLog_cases {v : Value} {handle? : Option Handle} {files : FileSystem}
    (h : openLog v fs = .ok (handle?, files)) :
    (handle? = none ∧ files = fs) ∨
      ∃ p, logPlace? fs v = some p ∧ (handle?, files) =
        (some ((fs.provide logFileMode p).attach p).1, ((fs.provide logFileMode p).attach p).2) := by
  unfold openLog at h
  dsimp only at h
  split at h
  · cases h
    exact .inl ⟨rfl, rfl⟩
  · next htrue =>
    right
    -- The log file is named by a text or by octets, which only changes how a refusal shows it.
    split at h
    · obtain ⟨o, ho, heq⟩ := map_eq_ok_iff.mp h
      obtain ⟨p, hopen, rfl⟩ := exists_opens?_of_openFile_extend (mapError_eq_ok_iff.mp ho)
      refine ⟨p, ?_, heq.symm⟩
      rw [logPlace?, logPath?, if_neg htrue]
      exact hopen
    · obtain ⟨o, ho, heq⟩ := map_eq_ok_iff.mp h
      obtain ⟨p, hopen, rfl⟩ :=
        exists_opens?_of_openFile_extend (mapError_eq_ok_iff.mp (mapError_eq_ok_iff.mp ho))
      refine ⟨p, ?_, heq.symm⟩
      rw [logPlace?, logPath?, if_neg htrue]
      exact hopen
    · cases h

/-- A line of the log changes only the log. -/
theorem writeLine_sameBut (h : Handle) (fs : FileSystem) (line : Text) :
    SameBut (· = h.place) fs (writeLine h fs line) := by
  unfold writeLine
  split
  · exact .refl _ fs
  · exact write_sameBut fs h _

/-- The lines of the log change only the log. -/
theorem writeLines_sameBut (h : Handle) (lines : List Text) (fs : FileSystem) :
    SameBut (· = h.place) fs (lines.foldl (writeLine h) fs) := by
  induction lines generalizing fs with
  | nil => exact .refl _ fs
  | cons line rest ih => exact (writeLine_sameBut h fs line).trans (ih _)

/-- Whatever happens while the log is open, its file is all that is changed besides. -/
theorem finishLog_sameBut (hp : P p) (h : SameBut P (fs.attach p).2 gs) (lines : List Text) :
    SameBut P fs (finishLog (some (fs.attach p).1) lines gs) := by
  have hlines := (writeLines_sameBut (fs.attach p).1 lines gs).mono (Q := P) (by rintro _ rfl; exact hp)
  rw [finishLog, close_snd]
  exact SameBut.release (h.trans hlines)

/-- A command that is performed with a log changes its target and the log file at most. -/
theorem perform_sameBut (wording : Wording) (level? : Option LogLevel) (c : Config) (w : World)
    (command : Command) :
    SameBut (fun p => logPlace? w.files c.logFile = some p ∨ target? c w.files command = some p) w.files
      (perform wording level? c w command).world.files := by
  unfold perform
  cases hlog : openLog c.logFile w.files with
  | error fault => exact .refl _ _
  | ok opened =>
    obtain ⟨handle?, files⟩ := opened
    have hexecute := execute_sameBut wording c { w with files } command
    dsimp only
    generalize (execute wording c { w with files } command) = o at hexecute ⊢
    rcases openLog_cases hlog with ⟨rfl, rfl⟩ | ⟨p, hplace, heq⟩
    · exact hexecute.mono fun _ => .inr
    · cases heq
      have hprovide := provide_sameBut w.files logFileMode p
      -- The log file may be new, but what can be opened beside it could be opened before, so the target of the
      -- command is what it was.
      obtain ⟨path, _, hopen⟩ := Option.bind_eq_some_iff.mp hplace
      have hwrite := (opens?_eq_some_iff.mp hopen).2.2.2
      have hopens : ∀ path q, (((w.files.provide logFileMode p).attach p).2).opens? path = some q →
          w.files.opens? path = some q := fun _ _ =>
        opens?_of_opens? (hprovide.sameDirectories_attach p) (fun r hr => hprovide.node?_eq r hr) hwrite
      have hwhile := hexecute.mono (Q := fun q => q = p ∨ target? c w.files command = some q)
        fun q hq => .inr (target?_of_target? hopens (fun _ => node?_of_provide_eq_none) hq)
      have hall := fun lines => (hprovide.mono fun _ => .inl).trans (finishLog_sameBut (.inl rfl) hwhile lines)
      exact (hall _).mono fun q => Or.imp_left fun hq => hq.symm ▸ hplace

end Log

/-! ## Runs -/

section Runs

variable {wording : Wording} {arguments : List Text} {w : World}

/-- Without a configuration no file changes. -/
theorem performConfigured_files {i : Invocation} {command : Command} {fault : Fault}
    (h : (loadConfig i.configPath w).1 = .error fault) :
    (performConfigured wording i w command).world.files = w.files := by
  have hfiles := loadConfig_snd (w := w) i.configPath
  unfold performConfigured
  cases hload : loadConfig i.configPath w with
  | mk result files =>
    rw [hload] at h hfiles
    cases h
    dsimp only
    split
    · exact hfiles
    · exact hfiles

/-- A command is performed if the arguments are understood and name one, and the configuration can be loaded. -/
theorem performed?_eq_some_iff {c : Config} {command : Command} :
    performed? arguments w = some (c, command) ↔
      ∃ i, Invocation.read arguments = .ok i ∧ i.command = some command ∧
        (loadConfig i.configPath w).1 = .ok c := by
  unfold performed?
  cases Invocation.read arguments with
  | error stop => simp [Except.toOption]
  | ok i =>
    cases hcommand : i.command with
    | none => simp [Except.toOption, hcommand]
    | some other =>
      cases hload : (loadConfig i.configPath w).1 with
      | error fault => simp [Except.toOption, hcommand, hload]
      | ok d => simp [Except.toOption, hcommand, hload, and_comm]

/-- A run that reads its arguments as a command and loads its configuration performs the command. -/
theorem run_of_read {c : Config} {command : Command} {configPath : Option Text} {level? : Option LogLevel}
    (hread : Invocation.read arguments = .ok ⟨configPath, level?, some command⟩)
    (hload : (loadConfig configPath w).1 = .ok c) (wording : Wording) :
    run wording arguments w = perform wording level? c w command := by
  rw [run, hread]
  exact performConfigured_of_ok hload

/-- A run performs the command that it comes to. -/
theorem run_of_performed {c : Config} {command : Command} (h : performed? arguments w = some (c, command))
    (wording : Wording) : ∃ level?, run wording arguments w = perform wording level? c w command := by
  obtain ⟨i, hread, hcommand, hload⟩ := performed?_eq_some_iff.mp h
  refine ⟨i.level, ?_⟩
  rw [run, hread]
  dsimp only
  rw [hcommand]
  exact performConfigured_of_ok hload

/-- A run that ends before it performs a command leaves the files as they are. -/
theorem run_of_not_performed (h : performed? arguments w = none) (wording : Wording) :
    (run wording arguments w).world.files = w.files := by
  have hnot : ∀ c command i, Invocation.read arguments = .ok i → i.command = some command →
      (loadConfig i.configPath w).1 ≠ .ok c := by
    intro c command i hread hcommand hload
    cases h.symm.trans (performed?_eq_some_iff.mpr ⟨i, hread, hcommand, hload⟩)
  unfold run
  cases hread : Invocation.read arguments with
  | error stop => cases stop <;> rfl
  | ok i =>
    dsimp only
    cases hcommand : i.command with
    | none => rfl
    | some command =>
      cases hload : (loadConfig i.configPath w).1 with
      | error fault => exact performConfigured_files hload
      | ok c => exact absurd hload (hnot c command i hread hcommand)

/-- Whatever the command line and the world, a run leaves everything as it was, but for the log file and the
target of its command: it makes and removes no directory, and changes the permissions of none. A run that ends
before it performs a command leaves all files as they were. -/
theorem run_frame (wording : Wording) (arguments : List Text) (w : World) :
    (∀ c command, performed? arguments w = some (c, command) →
      SameBut (fun p => logPlace? w.files c.logFile = some p ∨ target? c w.files command = some p) w.files
        (run wording arguments w).world.files) ∧
    (performed? arguments w = none → (run wording arguments w).world.files = w.files) := by
  refine ⟨fun c command hperformed => ?_, fun hnone => run_of_not_performed hnone wording⟩
  obtain ⟨level?, hrun⟩ := run_of_performed hperformed wording
  rw [hrun]
  exact perform_sameBut wording level? c w command

end Runs

end CanonStore.Program
