import WixAuthoring.Proofs.Actions
import WixAuthoring.Proofs.Writing
import WixAuthoring.Program

namespace WixAuthoring

/-!
# Runs of the program

A run reads its command line and then performs what is asked for. A build reads the manifest, makes
its outputs, and last keeps a record of them and tells where they are.
-/

namespace Machine

variable {m : Machine} {s : Store}

theorem get_apply (m : Machine) : (get : Job Machine) m = (Except.ok m, m) := rfl

theorem lift_apply {α : Type} (effect : Effect α) (m : Machine) :
    (liftM effect : Job α) m = (Except.ok (effect m).1, (effect m).2) := rfl

theorem print_apply (line : String) (m : Machine) : print line m = ((), m.told line) := rfl

def toldAll (m : Machine) (lines : List String) : Machine := lines.foldl told m

@[simp] theorem toldAll_nil (m : Machine) : m.toldAll [] = m := rfl

@[simp] theorem toldAll_cons (m : Machine) (line : String) (lines : List String) :
    m.toldAll (line :: lines) = (m.told line).toldAll lines := rfl

theorem toldAll_eq (m : Machine) (lines : List String) :
    m.toldAll lines =
      { m with printed := lines.foldl (fun told line ↦ told ++ line ++ "\n") m.printed } := by
  induction lines generalizing m with
  | nil => rfl
  | cons line lines ih => exact ih (m.told line)

@[simp] theorem toldAll_store (m : Machine) (lines : List String) :
    (m.toldAll lines).store = m.store := by
  rw [toldAll_eq]

@[simp] theorem toldAll_commands (m : Machine) (lines : List String) :
    (m.toldAll lines).commands = m.commands := by
  rw [toldAll_eq]

theorem toldAll_append (m : Machine) (lines more : List String) :
    m.toldAll (lines ++ more) = (m.toldAll lines).toldAll more :=
  List.foldl_append

theorem forM_print {α : Type} (line : α → String) (items : List α) (m : Machine) :
    (items.forM fun a ↦ liftM (print (line a)) : Job Unit) m =
      (Except.ok (), m.toldAll (items.map line)) := by
  induction items generalizing m with
  | nil => rfl
  | cons a items ih =>
      change (liftM (print (line a)) >>= fun _ ↦ items.forM fun a ↦ liftM (print (line a)) :
        Job Unit) m = _
      rw [Action.bind_of_ok (lift_apply _ m)]
      exact ih (m.told (line a))

end Machine

/-! ## The journal -/

namespace Journal

open Machine

variable {m : Machine}

def complaint {α : Type} (trouble : String) : Except Failure α → List String
  | .ok _ => []
  | .error e => [trouble ++ ": " ++ e.message]

theorem attempt_apply {α : Type} (trouble : String) (job : Job α) (m : Machine) :
    attempt trouble job m = ((), (job m).2.toldAll (complaint trouble (job m).1)) := by
  rw [attempt, Action.run_bind_apply]
  rcases job m with ⟨_ | _, m⟩ <;> rfl

theorem writeRecord_apply {value : Json.Value} (hvalue : value.isWritable = true) (m : Machine) :
    writeRecord value m = save (recordPath m.environment) value.toText m := by
  rw [writeRecord, Action.bind_of_ok (get_apply m), if_pos hvalue]

theorem writeError_apply (message : String) (m : Machine) :
    writeError message m = extend (errorPath m.environment) (errorLine m.now message) m := by
  rw [writeError, Action.bind_of_ok (get_apply m)]

end Journal

namespace Manifest

theorem versionToken_ne_empty {content : List UInt8} {token : String}
    (h : versionToken content = some token) : token ≠ "" := by
  obtain ⟨chars, hchars, rfl⟩ := Option.map_eq_some_iff.1 h
  obtain ⟨line, -, hline⟩ := List.exists_of_findSome?_eq_some hchars
  rw [versionOfLine] at hline
  simp only [Option.bind_eq_bind, Option.bind_eq_some_iff] at hline
  obtain ⟨_, -, _, -, s, -, hvalue⟩ := hline
  have hne := (Option.filter_eq_some_iff.1 hvalue).2
  intro hempty
  simp_all

end Manifest

/-- Building is what is done when no command is given. -/
def CommandLine.Options.SelectsBuild (o : Options) : Prop :=
  o.command = none ∨ o.command = some .build

namespace Program

open CommandLine Machine

variable {arguments : List String} {o : Options} {m m' : Machine} {token : String}
  {version : Version} {outputs : List Path}

/-! ## The command line -/

theorem perform_of_selectsBuild (h : o.SelectsBuild) : perform o = build o := by
  rcases h with h | h <;> rw [perform, h]

theorem run_of_parse (h : CommandLine.parse arguments = .ok o) (m : Machine) :
    run arguments m = match perform o m with
      | (.ok n, m) => (.code n, m)
      | (.error e, m) => recover e m := by
  rw [run, h]
  dsimp only
  rw [Action.run_bind_apply]
  rcases perform o m with ⟨_ | _, m⟩ <;> rfl

theorem recover_configuration (e : ConfigurationError) (m : Machine) :
    recover (.configuration e) m =
      let logged := extend (Journal.errorPath m.environment) (Journal.errorLine m.now e.message) m
      (Ending.code 2, (logged.2.toldAll (Journal.complaint "Failed to log error" logged.1)).told
        ("error: " ++ e.message)) := by
  rw [recover, Action.effect_bind_apply, Action.effect_bind_apply, print_apply, Journal.error,
    Journal.attempt_apply, Journal.writeError_apply]
  rfl

/-- How a run ends in which a command has failed. The status of one that has ended is told and is the
code of the program. That one cannot be started is not handled. -/
inductive EndsWith (command : List String) (m : Machine) : Outcome → Ending → Machine → Prop
  | ended {status : Int} (h : status ≠ 0) : EndsWith command m (.ended status) (.code status)
      (m.told ("Build failed with exit code " ++ toString status))
  | notStarted (code : Nat) (reason : String) : EndsWith command m (.notStarted code reason)
      (.failed (.commandFailed command (.notStarted code reason))) m

theorem recover_commandFailed {outcome : Outcome} (h : outcome ≠ .ended 0) (command : List String)
    (m : Machine) : EndsWith command m outcome (recover (.commandFailed command outcome) m).1
      (recover (.commandFailed command outcome) m).2 := by
  cases outcome with
  | ended status => exact .ended fun hzero ↦ h (congrArg _ hzero)
  | notStarted code reason => exact .notStarted code reason

theorem recover_commands (e : Failure) (m : Machine) : (recover e m).2.commands = m.commands := by
  cases e with
  | configuration c =>
      obtain ⟨r, s, -, hextend⟩ :=
        extend_apply (Journal.errorPath m.environment) (Journal.errorLine m.now c.message) m
      rw [recover_configuration, hextend]
      exact toldAll_commands _ _
  | commandFailed command outcome => cases outcome <;> rfl
  | version | store | notWritten | notAppended | unsupportedEntry
  | unsupportedInDirectory | noInstallDirectory | unclosedNamespace | integerTooLong => rfl

/-- Nothing that failed ends well. -/
theorem recover_ne_zero {e : Failure}
    (h : ∀ command outcome, e = .commandFailed command outcome → outcome ≠ .ended 0) (m : Machine) :
    (recover e m).1 ≠ .code 0 := by
  cases e with
  | configuration c =>
      rw [recover_configuration]
      simp
  | commandFailed command outcome =>
      cases outcome with
      | ended status =>
          intro hzero
          exact h command _ rfl (congrArg Outcome.ended (Ending.code.inj hzero))
      | notStarted => exact Ending.noConfusion
  | version | store | notWritten | notAppended | unsupportedEntry | unsupportedInDirectory
  | noInstallDirectory | unclosedNamespace | integerTooLong => exact Ending.noConfusion

theorem recover_writeFailure (path : Path) (e : StoreError) (m : Machine) :
    recover (writeFailure path e) m = (.failed (writeFailure path e), m) := by
  cases e <;> rfl

/-! ## The manifest -/

theorem mapError_eq_ok_iff {α ε ε' : Type} {x : Except ε α} {f : ε → ε'} {a : α} :
    x.mapError f = .ok a ↔ x = .ok a := by
  cases x with
  | error e => constructor <;> intro h <;> cases h
  | ok b => exact ⟨fun h ↦ congrArg _ (Except.ok.inj h), fun h ↦ congrArg _ (Except.ok.inj h)⟩

/-- The version token in the manifest at a path, and what it stands for. -/
def manifestVersion (s : Store) (here : Location) (path : Path) :
    Except Failure (String × Version) := do
  let content ← (s.read here path.text).mapError .store
  let token := Manifest.versionToken content
  let version ← Manifest.requireVersion path.text token
  return (token.getD "", version)

theorem readManifest_apply (path : Path) (m : Machine) :
    readManifest path m = (manifestVersion m.store m.here path, m) := by
  rw [readManifest, Action.bind_apply, load_apply, manifestVersion]
  cases m.store.read m.here path.text with
  | error e => rfl
  | ok content =>
      change (Job.ofExcept (Manifest.requireVersion path.text (Manifest.versionToken content)) >>= _ :
        Job (String × Version)) m = _
      rw [Action.bind_apply, Job.ofExcept]
      change _ = (Manifest.requireVersion path.text (Manifest.versionToken content) >>= _, m)
      rcases Manifest.requireVersion path.text (Manifest.versionToken content) with _ | _ <;> rfl

theorem manifestVersion_of_no_token {s : Store} {here : Location} {path : Path}
    {content : List UInt8} (hread : s.read here path.text = .ok content)
    (htoken : Manifest.versionToken content = none) :
    manifestVersion s here path = .error (.configuration (.versionNotFound path.text)) := by
  rw [manifestVersion, hread]
  change (Manifest.requireVersion path.text (Manifest.versionToken content) >>= _) = _
  rw [htoken]
  rfl

theorem manifestVersion_eq_ok_iff {s : Store} {here : Location} {path : Path} :
    manifestVersion s here path = .ok (token, version) ↔ ∃ content,
      s.read here path.text = .ok content ∧ Manifest.versionToken content = some token ∧
      Manifest.tokenVersion path.text token = .ok version := by
  rw [manifestVersion, bind_eq_ok_iff]
  constructor
  · rintro ⟨content, hread, h⟩
    obtain ⟨found, hfound, h⟩ := bind_eq_ok_iff.1 h
    cases htoken : Manifest.versionToken content with
    | none =>
        rw [htoken] at hfound
        cases hfound
    | some word =>
        rw [htoken] at hfound h
        cases h
        exact ⟨content, mapError_eq_ok_iff.1 hread, htoken, hfound⟩
  · rintro ⟨content, hread, htoken, hversion⟩
    refine ⟨content, mapError_eq_ok_iff.2 hread, bind_eq_ok_iff.2 ⟨version, ?_, ?_⟩⟩
    · rw [htoken]
      exact hversion
    · rw [htoken]
      rfl

/-! ## Building -/

/-- What is told at the end of a build. -/
def summary (token : String) (outputs : List Path) : List String :=
  ("\nBuild complete. Version: " ++ token) :: outputs.map fun p ↦ "  " ++ p.text

/-- The machine after a build has kept its record and has told where its outputs are. -/
def concluded (o : Options) (token : String) (outputs : List Path) (m : Machine) : Machine :=
  let recorded := save (Journal.recordPath m.environment) (buildRecord m.now o token outputs).toText m
  recorded.2.toldAll (Journal.complaint "Failed to log event" recorded.1 ++ summary token outputs)

theorem areWritable_map_text {α : Type} (f : α → String) (items : List α) :
    Json.areWritable (items.map fun a ↦ .text (f a)) = true := by
  induction items with
  | nil => rfl
  | cons a items ih => exact ih

theorem concluded_commands (o : Options) (token : String) (outputs : List Path) (m : Machine) :
    (concluded o token outputs m).commands = m.commands := by
  rw [concluded, toldAll_commands, save_commands]

theorem isWritable_buildRecord (now : Moment) (o : Options) (token : String)
    (outputs : List Path) : (buildRecord now o token outputs).isWritable = true := by
  have houtputs := areWritable_map_text Path.text outputs
  rw [buildRecord]
  cases o.wixBin <;> exact (Bool.and_true _).trans houtputs

theorem build_apply (o : Options) (m : Machine) :
    build o m = match manifestVersion m.store m.here o.manifest with
      | .error e => (Except.error e, m)
      | .ok (token, version) =>
        match makeOutputs o (Product.package version (some token))
            (m.told ("Octobuild version: " ++ token)) with
        | (.error e, m) => (Except.error e, m)
        | (.ok outputs, m) => (Except.ok 0, concluded o token outputs m) := by
  rw [build, Action.bind_apply, readManifest_apply]
  cases manifestVersion m.store m.here o.manifest with
  | error e => rfl
  | ok found =>
      obtain ⟨token, version⟩ := found
      dsimp only
      rw [Action.bind_of_ok (lift_apply _ m), print_apply, Action.bind_apply]
      rcases makeOutputs o (Product.package version (some token))
        (m.told ("Octobuild version: " ++ token)) with ⟨_ | outputs, m⟩
      · rfl
      · dsimp only
        rw [Action.bind_of_ok (get_apply m), Action.bind_of_ok (lift_apply _ m)]
        rw [Journal.record, Journal.attempt_apply, Journal.writeRecord_apply (isWritable_buildRecord ..)]
        rw [Action.bind_of_ok (lift_apply _ _), print_apply, Action.bind_of_ok (forM_print ..)]
        rw [concluded, toldAll_append, summary, toldAll_cons]
        rfl

end Program

end WixAuthoring
