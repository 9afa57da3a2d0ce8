import CanonStore.Proofs.Program.Failure
import CanonStore.Proofs.Text.Utf8
import CanonStore.Proofs.Timestamp.Count

/-!
# How commands end

A command ends with an exit code, with a fault that the run turns into one, or with a fault that passes
through the run. `World.Suits` says what the world has to hold for a command not to end in the last way, and
`execute_requires` that no more and no less is needed. Only the making of identifiers can end with the exit
code of fatal faults (`execute_fatal_iff`).
-/

namespace CanonStore

open Fault (IsMild IsWild)
open FileFault (IsRefusal IsNoRefusal)

/-! ## What a command needs -/

/-- How the making of identifiers ends when there are not enough octets: with a short answer of the source,
or with its failure if it runs dry between two identifiers. -/
def Entropy.shortage (e : Entropy) : Fault :=
  let left := e.octets.length % Identifier.size
  if left = 0 then Identifier.Fault.toFault (.sourceFailed e.whenDry)
  else Identifier.Fault.toFault (.wrongSize left)

/-- What is left of a source after one identifier. -/
def Entropy.afterOne (e : Entropy) : Entropy := ⟨e.octets.drop Identifier.size, e.whenDry⟩

/-- There are octets for as many identifiers. -/
def Entropy.Suffices (e : Entropy) (count : Nat) : Prop := Identifier.size * count ≤ e.octets.length

/-- The source fails in a way that is reported: with a short answer, or as sources are known to, with a wording
that can be shown. -/
def Entropy.FailsOpenly (e : Entropy) : Prop :=
  ¬ Identifier.size ∣ e.octets.length ∨
    (Identifier.isSourceFailure e.whenDry ∧ e.whenDry.wording.toOption.isSome)

/-- The world holds what a command under a configuration needs. -/
def World.Suits (w : World) (c : Config) : Command → Prop
  | .hash (.text t) _ => ∀ ch ∈ t, ch.isSurrogate = false
  | .hash (.file path) _ | .blobRead path _ =>
    ∃ p, c.resolve path = .ok p ∧ w.files.Answers (PathName.normalText p.text)
  | .blobWrite path payload =>
    ∀ octets, payload.octets = .ok octets → ∃ p, c.resolve path = .ok p ∧ FilePath.check p.text = .ok ()
  | .identifiers count =>
    1 ≤ count → w.entropy.Suffices count.toNat ∨ w.entropy.FailsOpenly ∨ w.entropy.whenDry.exitCode?.isSome
  | .now _ =>
    minTimestampSeconds ≤ w.now / nanosPerSecond ∧ w.now / nanosPerSecond ≤ maxTimestampSeconds
  | .configInit path =>
    w.files.hasPath (PathName.normalText path) = .ok true ∨
      ∃ p, w.files.opens? (PathName.normalText path) = some p ∧ w.files.Takes p (Utf8.encodeAny Config.template)
  | .configShow => ∃ j, Json.ofValue c.toDict = .ok j
  | .blobHelp | .configUsage => True

namespace Program

variable {c : Config} {w : World} {wording : Wording}

/-! ## Operations on files -/

/-- A command goes on with what an effect gives, or ends with its fault. -/
theorem after_result {α : Type} (e : Effect α) (next : World → α → Outcome) :
    (Outcome.after w e next).result =
      e.result >>= fun a => (next { w with files := e.files } a).result := by
  unfold Outcome.after
  cases e.result with
  | error fault => rfl
  | ok a => rfl

/-- A command goes on with the path under the base directory, or ends with the fault of that directory. -/
theorem withPath_result (path : Text) (next : Text → Outcome) :
    (withPath c w path next).result =
      (c.resolve path).mapError Config.BaseDirFault.toFault >>= fun p => (next p.text).result := by
  unfold withPath
  cases c.resolve path with
  | error fault => rfl
  | ok p => rfl

/-- A path under a configuration needs a base directory that is a path, and what comes then. -/
theorem withPath_requires {path : Text} {next : Text → Outcome} {p : Text → Prop}
    (h : ∀ t, Requires IsMild IsWild (next t).result (p t)) :
    Requires IsMild IsWild (withPath c w path next).result
      (∃ q, c.resolve path = .ok q ∧ p q.text) := by
  rw [withPath_result]
  cases c.resolve path with
  | error fault => exact .of_wild rfl (by simp)
  | ok q => exact (h q.text).congr (by simp)

/-- A failed operation of the store is reported exactly if the system refused it. -/
theorem fail_requires {α β : Type} {fault : FileFault} {p : Prop} {kind : ReportKind}
    (h : Requires IsRefusal IsNoRefusal (.error fault : Except FileFault α) p) (hkind : kind.isFatal = false)
    (files : FileSystem) (source what path : Text) :
    Requires IsMild IsWild (Store.fail (α := β) files source kind what path fault).result p := by
  cases fault with
  | system fault =>
    have hmild : IsMild (.located kind (what ++ " file " ++ path ++ ": " ++ fault.message) (some path)
        (some fault.toFault) []) := by
      unfold IsMild Fault.located
      rw [Fault.exitCode?_make, hkind]
      rfl
    exact h.of_error (fun _ => hmild) (absurd trivial)
  | unencodable fault => exact h.of_error False.elim fun _ => rfl
  | nullByte => exact h.of_error False.elim fun _ => rfl
  | endless => exact h.of_error False.elim fun _ => rfl

/-- Loading needs a path that is answered; every other failure of it is mild. -/
theorem load_requires (fs : FileSystem) (path : Text) :
    Requires IsMild IsWild (Store.load fs path).result (fs.Answers (PathName.normalText path)) := by
  have hread := fs.readFile_requires (PathName.normalText path)
  unfold Store.load
  split
  · next fault files heq =>
    rw [heq] at hread
    exact fail_requires hread rfl _ _ _ _
  · next octets files heq =>
    rw [heq] at hread
    exact .of_ok octets hread.of_eq_ok

theorem replace_requires (fs : FileSystem) (path : Text) (octets : Bytes) :
    Requires IsRefusal IsNoRefusal (Store.replace fs path octets none).1 (FilePath.check path = .ok ()) := by
  have hopen := fs.openFile_requires path (.replace Store.fileMode)
  unfold Store.replace Store.openAnew
  cases heq : fs.openFile (.replace Store.fileMode) path with
  | error fault =>
    rw [heq] at hopen
    exact hopen.of_error id id
  | ok o =>
    rw [heq] at hopen
    -- Whatever goes wrong with the open file is a refusal of the system.
    show Requires _ _ (o.2.writeAndClose o.1 octets).1 _
    unfold FileSystem.writeAndClose FileSystem.closeAfter
    dsimp only
    rcases (o.2.write o.1 octets).2.close o.1 with ⟨_ | _, files⟩
    · exact .of_mild trivial hopen.of_eq_ok
    · rcases (o.2.write o.1 octets).1 with _ | _
      · exact .of_mild trivial hopen.of_eq_ok
      · exact .of_ok () hopen.of_eq_ok

/-- Saving needs a path that can be one; every other failure of it is mild. -/
theorem save_requires (fs : FileSystem) (path : Text) (octets : Bytes) :
    Requires IsMild IsWild (Store.save fs path octets none).result (FilePath.check path = .ok ()) := by
  have hreplace := replace_requires fs path octets
  unfold Store.save
  split
  · next fault files heq =>
    rw [heq] at hreplace
    exact fail_requires hreplace rfl _ _ _ _
  · next files heq =>
    rw [heq] at hreplace
    exact .of_ok () hreplace.of_eq_ok

/-! ## Commands one by one -/

theorem hash_requires (source : DigestSource) (hex : Bool) :
    Requires IsMild IsWild (hash c w source hex).result (w.Suits c (.hash source hex)) := by
  cases source with
  | text t =>
    show Requires _ _ (hash c w (.text t) hex).result (∀ ch ∈ t, ch.isSurrogate = false)
    unfold hash
    dsimp only
    cases hencode : Utf8.encode t with
    | error fault =>
      refine .of_wild rfl fun hall => ?_
      rw [(Utf8.encode_eq_ok_iff t _).mpr ⟨hall, rfl⟩] at hencode
      cases hencode
    | ok octets => exact .of_ok _ ((Utf8.encode_eq_ok_iff t octets).mp hencode).1
  | file path =>
    refine withPath_requires (p := fun t => w.files.Answers (PathName.normalText t)) fun t => ?_
    rw [after_result]
    exact (load_requires w.files t).bind_ok fun octets => ⟨_, rfl⟩

theorem blobRead_requires (path : Text) (hex : Bool) :
    Requires IsMild IsWild (blobRead c w path hex).result (w.Suits c (.blobRead path hex)) := by
  refine withPath_requires (p := fun t => w.files.Answers (PathName.normalText t)) fun t => ?_
  rw [after_result]
  exact (load_requires w.files t).bind_ok fun octets => ⟨_, rfl⟩

theorem blobWrite_requires (path : Text) (payload : Payload) :
    Requires IsMild IsWild (blobWrite c w path payload).result (w.Suits c (.blobWrite path payload)) := by
  unfold blobWrite
  cases hpayload : payload.octets with
  | error message => exact .of_ok _ fun _ h => nomatch hpayload.symm.trans h
  | ok octets =>
    refine (withPath_requires (p := fun t => FilePath.check t = .ok ()) fun t => ?_).congr
      ⟨fun h _ _ => h, fun h => h octets hpayload⟩
    rw [after_result]
    exact (save_requires w.files t octets).bind_ok fun _ => ⟨_, rfl⟩

theorem now_requires (asJson : Bool) :
    Requires IsMild IsWild (now w asJson).result (w.Suits c (.now asJson)) := by
  have hclock := Timestamp.exists_ofUnixNanos?_iff w.now
  -- A time that has no timestamp is a fault without an exit code; one without a text has an exit code.
  unfold now World.Suits
  cases htime : Timestamp.ofUnixNanos? w.now with
  | error problems =>
    rw [htime] at hclock
    exact .of_wild rfl fun h => by
      obtain ⟨_, ht⟩ := hclock.mpr h
      cases ht
  | ok t =>
    have hrange := hclock.mp ⟨t, htime⟩
    dsimp only
    split
    · exact .of_ok _ hrange
    · split
      · exact .of_mild rfl hrange
      · exact .of_ok _ hrange

theorem configShow_requires : Requires IsMild IsWild (configShow c w).result (w.Suits c .configShow) := by
  unfold configShow World.Suits
  cases Json.ofValue c.toDict with
  | error fault => cases fault <;> exact .of_wild rfl (by simp)
  | ok j => exact .of_ok _ ⟨j, rfl⟩

/-- Where nothing stands a text can be written exactly if a file can be opened there and takes it. -/
theorem writeText_eq_ok_iff {fs : FileSystem} {path : Text} (hpath : fs.hasPath path = .ok false) (t : Text) :
    (writeText fs path t).1 = .ok () ↔ ∃ p, fs.opens? path = some p ∧ fs.Takes p (Utf8.encodeAny t) := by
  unfold writeText
  cases hopens : fs.opens? path with
  | none =>
    obtain ⟨fault, hfault⟩ := FileSystem.openFile_replace_of_not_opens? hopens textFileMode
    rw [hfault]
    exact iff_of_false nofun nofun
  | some p =>
    -- There is nothing at the path, so no device either, and what is opened is a new file.
    have hnode : fs.node? p = none := by
      rw [FileSystem.hasPath_of_opens? hopens, Except.ok.injEq, Option.isSome_eq_false_iff,
        Option.isNone_iff_eq_none] at hpath
      exact hpath
    have hdev : ¬ fs.IsDevice p := by
      rintro ⟨kind, hkind⟩
      cases hnode.symm.trans hkind
    obtain ⟨_, _, hdir, _⟩ := FileSystem.opens?_eq_some_iff.mp hopens
    rw [FileSystem.openFile_replace_of_opens? hopens, FileSystem.vacate_eq hdir hdev]
    dsimp only
    rw [FileSystem.writeAndClose_eq_ok_iff (fs.node?_replaceWith textFileMode p [])]
    simp only [Option.some.injEq, exists_eq_left']
    exact ⟨fun h => ⟨h.writing, h.closing⟩, fun h => ⟨h.writing, h.closing⟩⟩

theorem configInit_requires (path : Text) :
    Requires IsMild IsWild (configInit w path).result (w.Suits c (.configInit path)) := by
  show Requires _ _ _ (w.files.hasPath (PathName.normalText path) = .ok true ∨
    ∃ p, w.files.opens? (PathName.normalText path) = some p ∧ w.files.Takes p (Utf8.encodeAny Config.template))
  unfold configInit
  dsimp only
  generalize PathName.normalText path = p
  have hopens : ∀ q, w.files.opens? p = some q → w.files.hasPath p = .ok (w.files.node? q).isSome :=
    fun _ => FileSystem.hasPath_of_opens?
  cases hpath : w.files.hasPath p with
  | error fault =>
    refine .of_wild rfl ?_
    rintro (h | h)
    · cases h
    · obtain ⟨q, hq, _⟩ := h
      cases hpath.symm.trans (hopens q hq)
  | ok found =>
    cases found with
    | true => exact .of_ok _ (.inl rfl)
    | false =>
      have hwrite := writeText_eq_ok_iff hpath Config.template
      dsimp only
      cases hresult : writeText w.files p Config.template with
      | mk result files =>
        rw [hresult] at hwrite
        cases result with
        | error fault =>
          -- Neither kind of failure of a file is one that the program knows.
          have hwild : IsWild fault.toFault := by cases fault <;> rfl
          refine .of_wild hwild ?_
          rintro (h | h)
          · cases h
          · cases hwrite.mpr h
        | ok _ => exact .of_ok _ (.inr (hwrite.mp rfl))

/-! ## Identifiers -/

/-- With sixteen octets at hand an identifier is made of them. -/
theorem draw_of_le {e : Entropy} (h : Identifier.size ≤ e.octets.length) :
    Identifier.draw Entropy.source e =
      (.ok (Identifier.ofEntropy (e.octets.take Identifier.size)), e.afterOne) := by
  have hne : e.octets.isEmpty = false := by
    rw [List.isEmpty_eq_false_iff, ← List.length_pos_iff]
    exact Nat.lt_of_lt_of_le (by decide) h
  have hlength : (e.octets.take Identifier.size).length = Identifier.size := by
    rw [List.length_take, Nat.min_eq_left h]
  simp only [Identifier.draw, Entropy.source, Entropy.take, hne, Bool.false_eq_true, if_false,
    Identifier.generate, hlength, if_true, Entropy.afterOne]

/-- With less than sixteen octets at hand the source fails, and they are gone. -/
theorem draw_of_lt {e : Entropy} (h : e.octets.length < Identifier.size) :
    ∃ fault, Identifier.draw Entropy.source e = (.error fault, ⟨[], e.whenDry⟩) ∧
      fault.toFault = e.shortage := by
  have hleft : e.octets.length % Identifier.size = e.octets.length := Nat.mod_eq_of_lt h
  rw [Entropy.shortage, hleft]
  obtain ⟨octets, whenDry⟩ := e
  cases octets with
  | nil => exact ⟨.sourceFailed whenDry, rfl, rfl⟩
  | cons b rest =>
    have htake : (b :: rest).take Identifier.size = b :: rest := List.take_of_length_le (Nat.le_of_lt h)
    have hdrop : (b :: rest).drop Identifier.size = [] := List.drop_eq_nil_of_le (Nat.le_of_lt h)
    refine ⟨.wrongSize (b :: rest).length, ?_, rfl⟩
    simp only [Identifier.draw, Entropy.source, Entropy.take, List.isEmpty_cons, Bool.false_eq_true, if_false,
      Identifier.generate, htake, hdrop, Nat.ne_of_lt h]

/-- With sixteen octets at hand the first identifier is printed, and the others of what is left. -/
theorem printIdentifiers_succ_of_le {w : World} (h : Identifier.size ≤ w.entropy.octets.length) (count : Nat) :
    printIdentifiers (count + 1) w =
      { printIdentifiers count { w with entropy := w.entropy.afterOne } with
        out := line (Identifier.ofEntropy (w.entropy.octets.take Identifier.size)) ++
          (printIdentifiers count { w with entropy := w.entropy.afterOne }).out } := by
  rw [printIdentifiers, draw_of_le h]

/-- With less than sixteen octets at hand nothing more is printed. -/
theorem printIdentifiers_succ_of_lt {w : World} (h : w.entropy.octets.length < Identifier.size) (count : Nat) :
    ∃ log, printIdentifiers (count + 1) w =
      { Outcome.failed { w with entropy := ⟨[], w.entropy.whenDry⟩ } w.entropy.shortage with log } := by
  obtain ⟨fault, hdraw, hshortage⟩ := draw_of_lt h
  rw [printIdentifiers, hdraw, ← hshortage]
  exact ⟨_, rfl⟩

/-- As many identifiers are made as there are octets for; then the source fails. -/
theorem printIdentifiers_result (count : Nat) (w : World) :
    (w.entropy.Suffices count → (printIdentifiers count w).result = .ok .success) ∧
      (¬ w.entropy.Suffices count → (printIdentifiers count w).result = .error w.entropy.shortage) := by
  induction count generalizing w with
  | zero => exact ⟨fun _ => rfl, fun h => absurd (Nat.zero_le _) h⟩
  | succ count ih =>
    rcases Nat.lt_or_ge w.entropy.octets.length Identifier.size with hlt | hle
    · have hnot : ¬ w.entropy.Suffices (count + 1) := by
        unfold Entropy.Suffices
        rw [Nat.mul_succ]
        omega
      obtain ⟨_, hfailed⟩ := printIdentifiers_succ_of_lt hlt count
      exact ⟨fun h => absurd h hnot, fun _ => congrArg Outcome.result hfailed⟩
    · -- Taking off sixteen octets changes neither how many are left over nor how the source fails.
      have hsuffices : w.entropy.Suffices (count + 1) ↔ w.entropy.afterOne.Suffices count := by
        unfold Entropy.Suffices Entropy.afterOne
        rw [List.length_drop, Nat.mul_succ]
        omega
      have hshortage : w.entropy.shortage = w.entropy.afterOne.shortage := by
        unfold Entropy.shortage Entropy.afterOne
        rw [List.length_drop, ← Nat.mod_eq_sub_mod hle]
      rw [congrArg Outcome.result (printIdentifiers_succ_of_le hle count), hsuffices, hshortage]
      exact ih { w with entropy := w.entropy.afterOne }

/-- A failure of the source is reported if sources are known for it and it has a wording. Otherwise it ends a run
as it would by itself. -/
theorem exitCode?_sourceFailed (cause : Fault) :
    (Identifier.isSourceFailure cause ∧ cause.wording.toOption.isSome →
        (Identifier.Fault.toFault (.sourceFailed cause)).exitCode? = some .fatal) ∧
      (¬ (Identifier.isSourceFailure cause ∧ cause.wording.toOption.isSome) →
        (Identifier.Fault.toFault (.sourceFailed cause)).exitCode? = cause.exitCode?) := by
  rw [Identifier.Fault.toFault]
  by_cases hsource : Identifier.isSourceFailure cause
  · rw [if_pos hsource]
    cases hwording : cause.wording with
    | ok text => exact ⟨fun _ => rfl, fun h => absurd ⟨hsource, rfl⟩ h⟩
    | error fault =>
      refine ⟨fun h => by simp [Except.toOption] at h, fun _ => ?_⟩
      -- Only a fault that cannot be shown has no wording, and none that sources are known for interrupts a run.
      cases cause with
      | unshown kind why =>
        cases hwording
        rw [Fault.exitCode?_display]
        cases kind with
        | interrupted => cases hsource
        | _ => rfl
      | _ => cases hwording
  · rw [if_neg hsource]
    exact ⟨fun h => absurd h.1 hsource, fun _ => rfl⟩

/-- A source that fails openly is fatal; any other failure of the source ends a run as it would by itself. -/
theorem exitCode?_shortage (e : Entropy) :
    (e.FailsOpenly → e.shortage.exitCode? = some .fatal) ∧
      (¬ e.FailsOpenly → e.shortage.exitCode? = e.whenDry.exitCode?) := by
  unfold Entropy.FailsOpenly Entropy.shortage
  rw [Nat.dvd_iff_mod_eq_zero]
  -- Only what is left after whole identifiers matters: some octets are a short answer, none are the failure
  -- itself.
  generalize e.octets.length % Identifier.size = left
  dsimp only
  split
  · next hzero =>
    simp only [hzero, not_true_eq_false, false_or]
    exact exitCode?_sourceFailed e.whenDry
  · next hleft =>
    exact ⟨fun _ => Fault.exitCode?_make _ _ _ _ _, fun h => absurd (Or.inl hleft) h⟩

theorem identifiers_requires (count : Int) :
    Requires (fun fault => fault.exitCode?.isSome) IsWild (identifiers w count).result
      (w.Suits c (.identifiers count)) := by
  show Requires _ _ _ (1 ≤ count → _)
  unfold identifiers
  obtain ⟨henough, hshort⟩ := printIdentifiers_result count.toNat w
  split
  · next hnone => exact .of_ok _ fun h => absurd h (Int.not_le.mpr hnone)
  · next hsome =>
    by_cases hsuffices : w.entropy.Suffices count.toNat
    · rw [henough hsuffices]
      exact .of_ok _ fun _ => .inl hsuffices
    · rw [hshort hsuffices]
      obtain ⟨hopenly, hpasses⟩ := exitCode?_shortage w.entropy
      by_cases hfails : w.entropy.FailsOpenly
      · exact .of_mild (by rw [hopenly hfails]; rfl) fun _ => .inr (.inl hfails)
      · -- Any other failure has an exit code or has none.
        cases hcode : w.entropy.whenDry.exitCode? with
        | none =>
          refine .of_wild ((hpasses hfails).trans hcode) fun h => ?_
          simpa [hsuffices, hfails, hcode] using h (Int.not_lt.mp hsome)
        | some code => exact .of_mild (by rw [hpasses hfails, hcode]; rfl) fun _ => .inr (.inr rfl)

/-! ## All commands -/

/-- Apart from the making of identifiers no command has a fatal fault. -/
theorem execute_requires_of_ne {command : Command} (h : ∀ count, command ≠ .identifiers count) :
    Requires IsMild IsWild (execute wording c w command).result (w.Suits c command) := by
  cases command with
  | hash source hex => exact hash_requires source hex
  | identifiers count => exact absurd rfl (h count)
  | now asJson => exact now_requires asJson
  | blobHelp => exact .of_ok _ trivial
  | blobWrite path payload => exact blobWrite_requires path payload
  | blobRead path hex => exact blobRead_requires path hex
  | configInit path => exact configInit_requires path
  | configShow => exact configShow_requires
  | configUsage => exact .of_ok _ trivial

/-- A command needs a world that suits it. -/
theorem execute_requires (command : Command) :
    Requires (fun fault => fault.exitCode?.isSome) IsWild (execute wording c w command).result
      (w.Suits c command) := by
  by_cases h : ∀ count, command ≠ .identifiers count
  · refine (execute_requires_of_ne h).imp (fun fault hmild => ?_) fun _ => id
    rw [hmild]
    rfl
  · obtain ⟨count, rfl⟩ := not_forall_not.mp h
    exact identifiers_requires count

/-- What comes after an operation on files has the exit code of the whole. -/
theorem after_eq_ok {α : Type} {e : Effect α} {next : World → α → Outcome} {code : ExitCode}
    (h : (Outcome.after w e next).result = .ok code) : ∃ w' a, (next w' a).result = .ok code := by
  rw [after_result] at h
  obtain ⟨a, _, h⟩ := bind_eq_ok_iff.mp h
  exact ⟨_, a, h⟩

theorem withPath_eq_ok {path : Text} {next : Text → Outcome} {code : ExitCode}
    (h : (withPath c w path next).result = .ok code) : ∃ t, (next t).result = .ok code := by
  rw [withPath_result] at h
  obtain ⟨p, _, h⟩ := bind_eq_ok_iff.mp h
  exact ⟨p.text, h⟩

section ExitCode

variable {code : ExitCode}

/-- A command that has printed all has the exit code of success, whatever it has logged. -/
theorem printed_eq_ok {w' : World} {t : Text} {log : List LogRecord}
    (h : ({ Outcome.printed w' t with log } : Outcome).result = .ok code) : code = .success :=
  (Except.ok.inj h).symm

theorem hash_eq_ok {source : DigestSource} {hex : Bool} (h : (hash c w source hex).result = .ok code) :
    code = .success := by
  cases source with
  | text t =>
    rw [hash] at h
    split at h
    · cases h
    · exact printed_eq_ok h
  | file path =>
    obtain ⟨_, h⟩ := withPath_eq_ok h
    obtain ⟨_, _, h⟩ := after_eq_ok h
    exact printed_eq_ok h

/-- Only a count below one is refused; with too few octets there is a fault in place of an exit code. -/
theorem identifiers_eq_ok {count : Int} (h : (identifiers w count).result = .ok code) :
    code = .success ∨ code = .failure := by
  obtain ⟨henough, hshort⟩ := printIdentifiers_result count.toNat w
  rw [identifiers] at h
  split at h
  · exact .inr (Except.ok.inj h).symm
  · by_cases hsuffices : w.entropy.Suffices count.toNat
    · exact .inl (Except.ok.inj (h.symm.trans (henough hsuffices)))
    · cases h.symm.trans (hshort hsuffices)

theorem now_eq_ok {asJson : Bool} (h : (now w asJson).result = .ok code) : code = .success := by
  rw [now] at h
  split at h
  · cases h
  · split at h
    · exact printed_eq_ok h
    · split at h
      · cases h
      · exact printed_eq_ok h

theorem blobWrite_eq_ok {path : Text} {payload : Payload} (h : (blobWrite c w path payload).result = .ok code) :
    code = .success ∨ code = .failure := by
  rw [blobWrite] at h
  split at h
  · exact .inr (Except.ok.inj h).symm
  · obtain ⟨_, h⟩ := withPath_eq_ok h
    obtain ⟨_, _, h⟩ := after_eq_ok h
    exact .inl (printed_eq_ok h)

theorem blobRead_eq_ok {path : Text} {hex : Bool} (h : (blobRead c w path hex).result = .ok code) :
    code = .success := by
  obtain ⟨_, h⟩ := withPath_eq_ok h
  obtain ⟨_, _, h⟩ := after_eq_ok h
  exact printed_eq_ok h

theorem configInit_eq_ok {path : Text} (h : (configInit w path).result = .ok code) :
    code = .success ∨ code = .failure := by
  rw [configInit] at h
  split at h
  · cases h
  · exact .inr (Except.ok.inj h).symm
  · split at h
    · cases h
    · exact .inl (printed_eq_ok h)

theorem configShow_eq_ok (h : (configShow c w).result = .ok code) : code = .success := by
  rw [configShow] at h
  split at h
  · cases h
  · exact printed_eq_ok h

/-- A command has an exit code of its own only for success and for failure. -/
theorem execute_eq_ok {command : Command} (h : (execute wording c w command).result = .ok code) :
    code = .success ∨ code = .failure := by
  cases command with
  | hash source hex => exact .inl (hash_eq_ok h)
  | identifiers count => exact identifiers_eq_ok h
  | now asJson => exact .inl (now_eq_ok h)
  | blobHelp => exact .inl (printed_eq_ok h)
  | blobWrite path payload => exact blobWrite_eq_ok h
  | blobRead path hex => exact .inl (blobRead_eq_ok h)
  | configInit path => exact configInit_eq_ok h
  | configShow => exact .inl (configShow_eq_ok h)
  | configUsage => exact .inl (printed_eq_ok h)

end ExitCode

/-- A command has a fatal fault exactly if it makes identifiers and the source of random octets fails. -/
theorem execute_fatal_iff (command : Command) :
    (∃ fault, (execute wording c w command).result = .error fault ∧ fault.exitCode? = some .fatal) ↔
      ∃ count, command = .identifiers count ∧ 1 ≤ count ∧ ¬ w.entropy.Suffices count.toNat ∧
        (w.entropy.FailsOpenly ∨ w.entropy.whenDry.exitCode? = some .fatal) := by
  -- The faults of all other commands are mild or wild, and neither kind is fatal.
  by_cases hother : ∀ count, command ≠ .identifiers count
  · refine iff_of_false ?_ fun ⟨count, heq, _⟩ => hother count heq
    rintro ⟨fault, hfault, hfatal⟩
    rcases (execute_requires_of_ne hother).mild_or_wild hfault with h | h
    · cases hfatal.symm.trans h
    · cases hfatal.symm.trans h
  · obtain ⟨count, rfl⟩ := not_forall_not.mp hother
    obtain ⟨henough, hshort⟩ := printIdentifiers_result count.toNat w
    obtain ⟨hopenly, hpasses⟩ := exitCode?_shortage w.entropy
    simp only [Command.identifiers.injEq, exists_eq_left']
    rw [execute, identifiers]
    split
    · next hnone => exact iff_of_false (by simp [Outcome.refused]) fun h => by omega
    · next hsome =>
      by_cases hsuffices : w.entropy.Suffices count.toNat
      · rw [henough hsuffices]
        exact iff_of_false (by simp) fun h => h.2.1 hsuffices
      · rw [hshort hsuffices]
        simp only [Except.error.injEq, exists_eq_left', Int.not_lt.mp hsome, hsuffices, not_false_iff, true_and]
        by_cases hfails : w.entropy.FailsOpenly
        · exact iff_of_true (hopenly hfails) (.inl hfails)
        · rw [hpasses hfails, or_iff_right hfails]

end Program

end CanonStore
