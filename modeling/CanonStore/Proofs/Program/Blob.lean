import CanonStore.Proofs.Program.Later
import CanonStore.Proofs.Program.Question

/-!
# Octets written and read by runs

What one run writes with `blob write`, later runs print: `blob read` the octets, and `hash` their digest. It
does not matter how the octets were spelled (`Payload.Spells`), nor what the file held before. The file has to be
neither the log nor the one that the configuration comes from, and the process has to be able to read it and to
extend the log when a later run starts (`Follows`). Main statement: `run_blobWrite_read`.
-/

namespace CanonStore

open FileSystem

/-- The run succeeds and prints a line. -/
def Run.Prints (r : Run) (t : Text) : Prop := r.result = .ok .success ∧ r.out = Program.line t

namespace Program

/-- Under a configuration a path leads to a file with the given octets, which can be closed when it was read. -/
structure Stored (c : Config) (fs : FileSystem) (path : Text) (d : Bytes) (p : Place) : Prop where
  located : ∃ q, c.resolve path = .ok q ∧ fs.locate q.text = .ok ⟨p, false⟩
  short : ¬ TooLong p
  node : ∃ mode, fs.node? p = some (.file d mode)
  closing : fs.medium.closing p = none

section

variable {wording : Wording} {level? : Option LogLevel} {c : Config} {w : World} {command : Command}
  {fs gs : FileSystem} {path t answer : Text} {payload : Payload} {d : Bytes} {p : Place}

/-- What a file holds stays there as long as nothing but other files changes. -/
theorem Stored.congr (h : Stored c fs path d p) (hdirectories : SameDirectories gs fs)
    (hnode : gs.node? p = fs.node? p) (hmedium : gs.medium = fs.medium) : Stored c gs path d p where
  located := by
    obtain ⟨q, hresolve, hlocate⟩ := h.located
    exact ⟨q, hresolve, (locate_congr hdirectories _ _).mpr hlocate⟩
  short := h.short
  node := by
    rw [hnode]
    exact h.node
  closing := by
    rw [hmedium]
    exact h.closing

/-- What a file holds is loaded if the process may read it. -/
theorem Stored.load_eq (h : Stored c fs path d p) (hreadable : fs.allows .read p = true)
    (hreading : fs.medium.reading p = none) :
    ∃ q, c.resolve path = .ok q ∧ (Store.load fs q.text).result = .ok d := by
  obtain ⟨q, hresolve, hlocate⟩ := h.located
  obtain ⟨mode, hnode⟩ := h.node
  have hload := Store.load_of_locate hlocate h.short ⟨hreading, h.closing⟩ hnode
  rw [if_pos hreadable] at hload
  exact ⟨q, hresolve, hload⟩

/-! ## With the log open -/

/-- Opening the log leaves all other files as they are, and what is opened is the log file. -/
theorem openLog_frame {v : Value} {handle? : Option Handle} {files : FileSystem}
    (h : openLog v fs = .ok (handle?, files)) :
    SameDirectories files fs ∧ files.medium = fs.medium ∧
      (∀ p, logPlace? fs v ≠ some p → files.node? p = fs.node? p) ∧
      ∀ handle, handle? = some handle → logPlace? fs v = some handle.place := by
  rcases openLog_cases h with ⟨rfl, rfl⟩ | ⟨p, hplace, heq⟩
  · exact ⟨.refl _, rfl, fun _ _ => rfl, nofun⟩
  · cases heq
    have hprovide := provide_sameBut fs logFileMode p
    refine ⟨hprovide.sameDirectories_attach p, hprovide.medium_eq, fun q hq => ?_, ?_⟩
    · exact hprovide.node?_eq q fun heq => hq (heq ▸ hplace)
    · rintro _ ⟨⟩
      exact hplace

/-- Lines of the log go to the log file. -/
theorem node?_finishLog {handle? : Option Handle} (h : ∀ handle, handle? = some handle → handle.place ≠ p)
    (lines : List Text) (fs : FileSystem) : (finishLog handle? lines fs).node? p = fs.node? p := by
  cases handle? with
  | none => rfl
  | some handle =>
    rw [finishLog, close_snd]
    exact (writeLines_sameBut handle lines fs).node?_eq p (h handle rfl).symm

/-! ## Printing -/

/-- A run that performs a command which prints. -/
theorem perform_prints {handle? : Option Handle} {files : FileSystem}
    (hlog : openLog c.logFile w.files = .ok (handle?, files))
    (hresult : (execute wording c { w with files } command).result = .ok .success)
    (hout : (execute wording c { w with files } command).out = line t) :
    (perform wording level? c w command).Prints t := by
  unfold perform
  rw [hlog]
  dsimp only
  rw [hresult]
  exact ⟨rfl, hout⟩

/-- A command that goes on with the octets of a file. -/
theorem withPath_load {q : PathName} {next : World → Bytes → Outcome} (hresolve : c.resolve path = .ok q)
    (hload : (Store.load w.files q.text).result = .ok d) :
    ∃ w', (withPath c w path fun t => .after w (Store.load w.files t) next).result = (next w' d).result ∧
      (withPath c w path fun t => .after w (Store.load w.files t) next).out = (next w' d).out := by
  unfold withPath Outcome.after
  rw [hresolve]
  dsimp only
  rw [hload]
  exact ⟨_, rfl, rfl⟩

/-- A question about octets that a file holds is answered, with the log open. -/
theorem execute_asks (wording : Wording) (h : Stored c w.files path d p) (hreadable : w.files.allows .read p = true)
    (hreading : w.files.medium.reading p = none) (hasks : command.Asks path d answer) :
    (execute wording c w command).result = .ok .success ∧ (execute wording c w command).out = line answer := by
  obtain ⟨q, hresolve, hload⟩ := h.load_eq hreadable hreading
  cases hasks with
  | octets hex =>
    obtain ⟨_, hresult, hout⟩ := withPath_load hresolve hload
    exact ⟨hresult, hout⟩
  | digest hex =>
    obtain ⟨_, hresult, hout⟩ := withPath_load hresolve hload
    exact ⟨hresult, hout⟩
  | textDigest ht hex =>
    rw [execute, hash, ht]
    exact ⟨rfl, rfl⟩

/-- A run answers a question about octets that a file holds, if the file is not the log. -/
theorem perform_asks (h : Stored c w.files path d p) (hreadable : w.files.allows .read p = true)
    (hreading : w.files.medium.reading p = none) (hlog : LogOpens w.files c.logFile)
    (hplace : logPlace? w.files c.logFile ≠ some p) (hasks : command.Asks path d answer) :
    (perform wording level? c w command).Prints answer := by
  obtain ⟨⟨handle?, files⟩, hopened⟩ := (exists_openLog_iff _ _).mpr hlog
  obtain ⟨hdirectories, hmedium, hframe, _⟩ := openLog_frame hopened
  have hnode := hframe p hplace
  have hreadable' : files.allows .read p = true := by
    rw [allows, hnode, hdirectories.permits_eq]
    exact hreadable
  have hreading' : files.medium.reading p = none := hmedium ▸ hreading
  obtain ⟨hresult, hout⟩ := execute_asks (w := { w with files }) wording (h.congr hdirectories hnode hmedium)
    hreadable' hreading' hasks
  exact perform_prints hopened hresult hout

/-! ## Writing -/

/-- Octets that are written to a file are put there by way of the store. -/
theorem blobWrite_eq (hoctets : payload.octets = .ok d) {q : PathName} (hresolve : c.resolve path = .ok q) :
    ((blobWrite c w path payload).result = .ok .success → (Store.save w.files q.text d none).Succeeds) ∧
      (blobWrite c w path payload).world.files = (Store.save w.files q.text d none).files := by
  unfold blobWrite withPath
  rw [hoctets]
  dsimp only
  rw [hresolve]
  dsimp only
  constructor
  · rw [after_result, bind_eq_ok_iff]
    rintro ⟨u, hsaved, _⟩
    exact ⟨u, hsaved⟩
  · rw [files_after _ fun _ _ => rfl]

/-- A payload that a regular file takes is put where its path leads. -/
theorem files_blobWrite (hoctets : payload.octets = .ok d) {q : PathName} (hresolve : c.resolve path = .ok q)
    (hopen : w.files.opens? q.text = some p) (hdev : ¬ w.files.IsDevice p)
    (hsuccess : (blobWrite c w path payload).result = .ok .success) :
    w.files.Takes p d ∧ (blobWrite c w path payload).world.files = w.files.replaceWith Store.fileMode p d := by
  obtain ⟨hsaved, hfiles⟩ := blobWrite_eq (w := w) hoctets hresolve
  have htakes := Store.takes_of_save hopen hdev (hsaved hsuccess)
  rw [hfiles]
  exact ⟨htakes, (Store.save_of_opens? hopen hdev htakes).2⟩

/-- A run that succeeds has performed its command with success, and has opened its log before. -/
theorem exists_openLog_of_perform (h : (perform wording level? c w command).result = .ok .success) :
    ∃ handle? files, openLog c.logFile w.files = .ok (handle?, files) ∧
      (execute wording c { w with files } command).result = .ok .success := by
  cases hlog : openLog c.logFile w.files with
  | error fault =>
    rw [perform, hlog] at h
    cases h
  | ok opened =>
    obtain ⟨handle?, files⟩ := opened
    refine ⟨handle?, files, rfl, ?_⟩
    rw [perform_result hlog] at h
    -- No fault is turned into the exit code of success.
    rcases conclude_eq_ok_iff.mp h with hresult | ⟨fault, _, hcode⟩
    · exact hresult
    · have hmem := exitCode?_mem hcode
      simp at hmem

/-- A run that writes octets to a regular file and succeeds leaves them there. -/
theorem stored_of_perform_blobWrite (hspells : payload.Spells d)
    (htarget : target? c w.files (.blobWrite path payload) = some p) (hfile : ¬ w.files.IsDevice p)
    (hplace : logPlace? w.files c.logFile ≠ some p)
    (hsuccess : (perform wording level? c w (.blobWrite path payload)).result = .ok .success) :
    Stored c (perform wording level? c w (.blobWrite path payload)).world.files path d p := by
  obtain ⟨e, q, hoctets, hresolve, hopen⟩ := target?_blobWrite_eq_some_iff.mp htarget
  obtain rfl := hspells.octets_eq hoctets
  obtain ⟨hlocate, hlong, hdir, hwrite⟩ := opens?_eq_some_iff.mp hopen
  obtain ⟨handle?, files, hlog, hresult⟩ := exists_openLog_of_perform hsuccess
  obtain ⟨hopened, hmedium, hframe, hhandle⟩ := openLog_frame hlog
  -- Opening the log does not touch the target, so what holds of it before holds after.
  have hnode := hframe p hplace
  have hopen' : files.opens? q.text = some p := opens?_eq_some_iff.mpr
    ⟨(locate_congr hopened _ _).mpr hlocate, hlong, mt (hopened.isDirectory_iff p).mp hdir,
      (mayWrite_congr hopened hnode).trans hwrite⟩
  have hdev : ¬ files.IsDevice p := by
    rintro ⟨kind, hkind⟩
    exact hfile ⟨kind, hnode.symm.trans hkind⟩
  obtain ⟨htakes, hwritten⟩ :=
    files_blobWrite (w := { w with files }) hoctets hresolve hopen' hdev hresult
  have hsame := perform_sameBut wording level? c w (.blobWrite path payload)
  refine ⟨⟨q, hresolve, (locate_congr hsame.sameDirectories _ _).mpr hlocate⟩, hlong,
    ⟨files.modeFor Store.fileMode p, ?_⟩, ?_⟩
  · -- The log is written after the command, and at another place.
    unfold perform
    rw [hlog]
    dsimp only
    rw [execute, hwritten, node?_finishLog, node?_replaceWith]
    intro handle hsome heq
    exact hplace (heq ▸ hhandle handle hsome)
  · rw [hsame.medium_eq, ← hmedium]
    exact htakes.closing

/-! ## Starting again -/

/-- A later run starts as the one that wrote a blob did: it loads the same configuration, and opens a log that is
not the target. -/
theorem starts_again {configPath : Option Text} (hload : (loadConfig configPath w).1 = .ok c)
    (htarget : target? c w.files (.blobWrite path payload) = some p) (hplace : logPlace? w.files c.logFile ≠ some p)
    (hconfig : ∀ q, configPlace? w.files configPath = some q → q ≠ p ∧ logPlace? w.files c.logFile ≠ some q)
    (hsuccess : (perform wording level? c w (.blobWrite path payload)).result = .ok .success) {v : World}
    (hfollows : Follows w.env (perform wording level? c w (.blobWrite path payload)).world.files
      (logPlace? w.files c.logFile) p v) :
    (loadConfig configPath v).1 = .ok c ∧ LogOpens v.files c.logFile ∧ logPlace? v.files c.logFile ≠ some p := by
  obtain ⟨henv, hfiles, _, _, hextendable⟩ := hfollows
  have hsame := perform_sameBut wording level? c w (.blobWrite path payload)
  have hdirectories := hfiles.sameDirectories.trans hsame.sameDirectories
  obtain ⟨handle?, opened, hopened, _⟩ := exists_openLog_of_perform hsuccess
  have hlog : LogOpens w.files c.logFile := (exists_openLog_iff _ _).mp ⟨_, hopened⟩
  refine ⟨?_, logOpens_of_sameDirectories hdirectories hlog hextendable, ?_⟩
  · -- Neither run has touched the file of the configuration.
    refine loadConfig_of_sameDirectories hdirectories (hfiles.medium_eq.trans hsame.medium_eq) henv (fun q hq => ?_)
      hload
    obtain ⟨hapart, hnolog⟩ := hconfig q hq
    refine (hfiles.node?_eq q hnolog).trans (hsame.node?_eq q ?_)
    rintro (hlogged | hwritten)
    · exact hnolog hlogged
    · exact hapart (Option.some.inj (hwritten.symm.trans htarget))
  · rw [logPlace?_of_sameDirectories hdirectories hlog hextendable]
    exact hplace

end

/-! ## Writing and reading -/

/-- A run writes octets to a regular file that is neither the log nor the file of its configuration, and succeeds.
Later runs under the same configuration that find nothing changed but the log, and that may read the file and
extend the log, print these octets and their digest, and the same digest for a text with these octets. They do so
however they are asked, and for the words in which one would ask. -/
theorem run_blobWrite_read {wording : Wording} {arguments : List Text} {configPath : Option Text}
    {level? : Option LogLevel} {w : World} {c : Config} {path : Text} {payload : Payload} {d : Bytes} {p : Place}
    (hread : Invocation.read arguments = .ok ⟨configPath, level?, some (.blobWrite path payload)⟩)
    (hspells : payload.Spells d) (hload : (loadConfig configPath w).1 = .ok c)
    (htarget : target? c w.files (.blobWrite path payload) = some p) (hfile : ¬ w.files.IsDevice p)
    (hplace : logPlace? w.files c.logFile ≠ some p)
    (hconfig : ∀ q, configPlace? w.files configPath = some q → q ≠ p ∧ logPlace? w.files c.logFile ≠ some q)
    (hsuccess : (run wording arguments w).result = .ok .success) {v : World}
    (hfollows : Follows w.env (run wording arguments w).world.files (logPlace? w.files c.logFile) p v)
    (wording' : Wording) :
    (∀ later level'? command answer,
      Invocation.read later = .ok ⟨configPath, level'?, some command⟩ → command.Asks path d answer →
        (run wording' later v).Prints answer) ∧
    ∀ words answer, Question path d words answer →
      (run wording' (Invocation.configWords configPath ++ words) v).Prints answer := by
  have hrun := run_of_read hread hload wording
  rw [hrun] at hsuccess hfollows
  obtain ⟨hload', hlog, hplace'⟩ := starts_again hload htarget hplace hconfig hsuccess hfollows
  obtain ⟨_, hfiles, hreadable, hreading, _⟩ := hfollows
  have hstored := (stored_of_perform_blobWrite hspells htarget hfile hplace hsuccess).congr
    hfiles.sameDirectories (hfiles.node?_eq p hplace) hfiles.medium_eq
  -- The words of a question are one way to ask, so what holds however one asks comes first.
  have hasked : ∀ later level'? command answer,
      Invocation.read later = .ok ⟨configPath, level'?, some command⟩ → command.Asks path d answer →
        (run wording' later v).Prints answer := by
    intro later level'? command answer hlater hasks
    rw [run_of_read hlater hload' wording']
    exact perform_asks hstored hreadable hreading hlog hplace' hasks
  refine ⟨hasked, fun words answer hquestion => ?_⟩
  obtain ⟨command, hasks, hlater⟩ := Invocation.exists_read_of_question hquestion configPath
  exact hasked _ none command answer hlater hasks

/-- A new file in the base directory, by digits of both cases. An ordinary process writes it and asks for it, with an
empty configuration file, and with a log that the first run creates. -/
theorem run_blobWrite_read_octets :
    ∃ (arguments : List Text) (w : World) (wording : Wording),
      arguments = [Text.ofString "--config", "c.yaml", "blob", "write", "a", "--hex", "0x6A6b"] ∧
      w = ⟨{ ((fresh ["work"] 0o022).put ["work", "data"] (.directory 0o755)).put ["work", "c.yaml"]
            (.file [] 0o644) with permits := Access.byOwner },
        .ofVariables [("CHAINUTIL_LOG_FILE", "run.log"), ("CHAINUTIL_STORAGE_DIR", "data")],
        ⟨[], .plain (.system .other) []⟩, 0⟩ ∧
      wording = ⟨[], [], [], []⟩ ∧ (run wording arguments w).result = .ok .success ∧
      ∀ v, v.files = (run wording arguments w).world.files → v.env = w.env →
        (run wording ["--config=c.yaml", "blob", "read", "a"] v).Prints "ams=" ∧
        (run wording ["--config=c.yaml", "hash", "a"] v).Prints (digestText false (Utf8.encodeAny "jk")) ∧
        (run wording ["--config=c.yaml", "hash", "--text", "jk"] v).Prints (digestText false (Utf8.encodeAny "jk")) := by
  obtain ⟨payload, hread, hspells, hpayload⟩ : ∃ payload,
      Invocation.read [Text.ofString "--config", "c.yaml", "blob", "write", "a", "--hex", "0x6A6b"] =
        .ok ⟨some "c.yaml", none, some (.blobWrite "a" payload)⟩ ∧ payload.Spells (Utf8.encodeAny "jk") ∧
      payload = .hex (Text.ofString "0x" ++ Text.ofString "6A6b") :=
    ⟨_, by decide +kernel, .hex (.inr (.inl rfl)) (by decide), rfl⟩
  refine ⟨_, _, ⟨[], [], [], []⟩, rfl, rfl, rfl, ?_⟩
  generalize hw : (World.mk { ((fresh ["work"] 0o022).put ["work", "data"] (.directory 0o755)).put ["work", "c.yaml"]
      (.file [] 0o644) with permits := Access.byOwner }
    (.ofVariables [("CHAINUTIL_LOG_FILE", "run.log"), ("CHAINUTIL_STORAGE_DIR", "data")])
    ⟨[], .plain (.system .other) []⟩ 0) = w
  -- What is used of the configuration and of the first run is evaluated before anything is derived from it.
  obtain ⟨c, hload, hsuccess, htarget, hlog, hreadable, hreading, hextendable⟩ : ∃ c,
      (loadConfig (some "c.yaml") w).1 = .ok c ∧
      (perform ⟨[], [], [], []⟩ none c w (.blobWrite "a" payload)).result = .ok .success ∧
      target? c w.files (.blobWrite "a" payload) = some [Text.ofString "work", "data", "a"] ∧
      logPlace? w.files c.logFile = some [Text.ofString "work", "run.log"] ∧
      (perform ⟨[], [], [], []⟩ none c w (.blobWrite "a" payload)).world.files.allows .read ["work", "data", "a"] =
        true ∧
      (perform ⟨[], [], [], []⟩ none c w (.blobWrite "a" payload)).world.files.medium.reading ["work", "data", "a"] =
        none ∧
      (perform ⟨[], [], [], []⟩ none c w (.blobWrite "a" payload)).world.files.mayWrite ["work", "run.log"] = true := by
    subst hw hpayload
    exact ⟨⟨.info, .text "run.log", .text "data", .bool false, .dict []⟩, rfl, rfl, by decide +kernel,
      by decide +kernel, by decide +kernel, by decide +kernel, by decide +kernel⟩
  have hconfig : configPlace? w.files (some "c.yaml") = some [Text.ofString "work", "c.yaml"] := by
    subst hw
    decide +kernel
  have hfile : ¬ w.files.IsDevice ["work", "data", "a"] := by
    subst hw
    decide
  rw [← run_of_read hread hload] at hsuccess hreadable hreading hextendable
  refine ⟨hsuccess, fun v hfiles henv => ?_⟩
  rw [← hfiles] at hreadable hreading hextendable
  have hplace : logPlace? w.files c.logFile ≠ some [Text.ofString "work", "data", "a"] := by
    rw [hlog]
    decide
  have hapart : ∀ q, configPlace? w.files (some "c.yaml") = some q →
      q ≠ [Text.ofString "work", "data", "a"] ∧ logPlace? w.files c.logFile ≠ some q := by
    rw [hlog, hconfig]
    rintro _ ⟨⟩
    decide
  have hextends : ∀ q, logPlace? w.files c.logFile = some q → v.files.mayWrite q = true := by
    rw [hlog]
    rintro _ ⟨⟩
    exact hextendable
  obtain ⟨_, hprints⟩ := run_blobWrite_read hread hspells hload htarget hfile hplace hapart hsuccess
    ⟨henv, by rw [hfiles]; exact .refl _ _, hreadable, hreading, hextends⟩ ⟨[], [], [], []⟩
  have htext : Base64.encode (Utf8.encodeAny "jk") = Text.ofString "ams=" := by decide
  refine ⟨htext ▸ hprints _ _ (.octets (by decide)), hprints _ _ (.digest (by decide)), ?_⟩
  exact hprints _ _ (.textDigest (by decide) (by decide))

/-- Octets are not always read again. If they were written over the configuration file, later runs may find no
configuration in it, and a text that starts with a hyphen is not taken for the value of an option. -/
theorem run_blobWrite_unread :
    (∃ w : World,
      w = ⟨(fresh ["work"] 0o022).put ["work", "c.yaml"] (.file [] 0o644), .empty, ⟨[], .plain (.system .other) []⟩, 0⟩ ∧
      ∀ wording wording' t,
        (run wording [Text.ofString "--config", "c.yaml", "blob", "write", "c.yaml", "--hex", "31"] w).result =
          .ok .success ∧
        ¬ (run wording' [Text.ofString "--config", "c.yaml", "blob", "read", "c.yaml"]
          (run wording [Text.ofString "--config", "c.yaml", "blob", "write", "c.yaml", "--hex", "31"] w).world).Prints t) ∧
    ∀ wording v t, ¬ (run wording [Text.ofString "hash", "--text", "-x"] v).Prints t := by
  constructor
  · generalize hw : (World.mk ((fresh ["work"] 0o022).put ["work", "c.yaml"] (.file [] 0o644)) .empty
      ⟨[], .plain (.system .other) []⟩ 0) = w
    refine ⟨w, rfl, fun wording wording' t => ?_⟩
    have hrun : run wording [Text.ofString "--config", "c.yaml", "blob", "write", "c.yaml", "--hex", "31"] w =
        perform wording none .standard w (.blobWrite "c.yaml" (.hex "31")) := by
      have hread : Invocation.read [Text.ofString "--config", "c.yaml", "blob", "write", "c.yaml", "--hex", "31"] =
          .ok ⟨some "c.yaml", none, some (.blobWrite "c.yaml" (.hex "31"))⟩ := by
        decide +kernel
      refine run_of_read hread ?_ wording
      subst hw
      rfl
    -- The configuration file holds a number now, which is no mapping.
    obtain ⟨v, hworld, hlater⟩ : ∃ v,
        (perform wording none .standard w (.blobWrite "c.yaml" (.hex "31"))).world = v ∧
          (loadConfig (some "c.yaml") v).1.toOption.isNone = true := by
      refine ⟨⟨(fresh ["work"] 0o022).put ["work", "c.yaml"] (.file [0x31] 0o644), .empty,
        ⟨[], .plain (.system .other) []⟩, 0⟩, ?_, by decide +kernel⟩
      subst hw
      rfl
    have hread : Invocation.read [Text.ofString "--config", "c.yaml", "blob", "read", "c.yaml"] =
        .ok ⟨some "c.yaml", none, some (.blobRead "c.yaml" false)⟩ := by
      decide +kernel
    rw [hrun, hworld]
    constructor
    · subst hw
      rfl
    · rintro ⟨hresult, _⟩
      rw [run, hread] at hresult
      cases hload : (loadConfig (some "c.yaml") v).1 with
      | ok c =>
        rw [hload] at hlater
        cases hlater
      | error fault =>
        rw [performConfigured_of_error hload] at hresult
        split at hresult <;> cases hresult
  · rintro wording v t ⟨hresult, _⟩
    have hread : Invocation.read [Text.ofString "hash", "--text", "-x"] = .error .misuse := by decide +kernel
    rw [run, hread] at hresult
    cases hresult

end Program

end CanonStore
