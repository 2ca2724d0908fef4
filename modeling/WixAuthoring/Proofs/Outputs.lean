import WixAuthoring.Proofs.Failures
import WixAuthoring.Proofs.Rendering
import WixAuthoring.Proofs.Runs

namespace WixAuthoring

/-!
# The outputs of a build

A full build writes its source, compiles it, links what was compiled, and writes the source once
more. What it comes to is settled when its source has been written: by the two commands, and by
whether there is room for the second copy.
-/

theorem Product.outputStem_package (version : Version) {token : String} (h : token ≠ "") :
    (package version (some token)).outputStem = "octobuild-" ++ token := by
  have htoken : given (some token) = some token := given_some h
  have hstem : given (some ("octobuild-" ++ token)) = some ("octobuild-" ++ token) := by
    apply given_some
    intro hempty
    simpa using congrArg String.toList hempty
  rw [Package.outputStem, package, htoken]
  dsimp only [Option.getD_some]
  rw [hstem]
  rfl

/-- The paths of a full build and the commands that lead from one to the next. -/
structure Plan where
  source : Path
  object : Path
  installer : Path
  delivered : Path
  compile : List String
  link : List String

/-- The paths and the commands of a full build, spelled out. -/
structure Plan.Spelled (o : CommandLine.Options) (token : String) (onWindows : Bool) (tools : Path)
    (b : Plan) : Prop where
  source_eq : b.source = (o.outDir.child "wix").child ("octobuild-" ++ token ++ ".wxs")
  object_eq : b.object = (o.outDir.child "wix").child ("octobuild-" ++ token ++ ".wixobj")
  installer_eq : b.installer = o.outDir.child ("octobuild-" ++ token ++ ".msi")
  delivered_eq : b.delivered = o.outDir.child ("octobuild-" ++ token ++ ".wxs")
  compile_eq : b.compile =
    [(tools.child (if onWindows then "candle.exe" else "candle")).text, "-nologo", "-arch", "x64",
     "-ext", "WixUIExtension", "-ext", "WixUtilExtension", "-out", b.object.text, b.source.text]
  link_eq : b.link =
    [(tools.child (if onWindows then "light.exe" else "light")).text, "-nologo",
     "-ext", "WixUIExtension", "-ext", "WixUtilExtension", "-sval", "-out", b.installer.text,
     b.object.text]

namespace Program

open CommandLine Machine

def plan (o : Options) (p : Package) (onWindows : Bool) (tools : Path) : Plan :=
  let between := o.outDir.child "wix"
  let source := Build.outputPath between p ".wxs"
  let object := Build.outputPath between p ".wixobj"
  let installer := Build.outputPath o.outDir p ".msi"
  { source := source
    object := object
    installer := installer
    delivered := Build.outputPath o.outDir p ".wxs"
    compile := Toolchain.compileCommand onWindows tools p.platform object source
    link := Toolchain.linkCommand onWindows tools p.lightOptions installer object }

variable {o : Options} {p : Package} {m m' m₁ : Machine} {tools : Path} {text : String}

theorem plan_spelled (o : Options) (version : Version) {token : String} (h : token ≠ "")
    (onWindows : Bool) (tools : Path) :
    (plan o (Product.package version (some token)) onWindows tools).Spelled o token onWindows
      tools := by
  have hpath (directory : Path) (extension : String) :
      Build.outputPath directory (Product.package version (some token)) extension =
        directory.child ("octobuild-" ++ token ++ extension) := by
    rw [Build.outputPath, Product.outputStem_package version h]
  exact
    { source_eq := hpath _ _
      object_eq := hpath _ _
      installer_eq := hpath _ _
      delivered_eq := hpath _ _
      compile_eq := by cases onWindows <;> rfl
      link_eq := by cases onWindows <;> rfl }

/-- What becomes of the two commands. -/
def runTools (b : Plan) (m : Machine) : Except Failure Path × Machine :=
  let compiled := m.ran b.compile
  let linked := compiled.ran b.link
  if m.outcome ≠ .ended 0 then (.error (.commandFailed b.compile m.outcome), compiled)
  else if compiled.outcome ≠ .ended 0 then (.error (.commandFailed b.link compiled.outcome), linked)
  else (.ok b.installer, linked)

/-- What a full build comes to once its source has been written. -/
def afterSource (b : Plan) (text : String) (m : Machine) : Except Failure (List Path) × Machine :=
  match runTools b m with
  | (.error e, m) => (.error e, m)
  | (.ok installer, m) =>
    match save b.delivered text m with
    | (.error e, m) => (.error e, m)
    | (.ok source, m) => (.ok [installer, source], m)

theorem afterSource_of_compile {b : Plan} (h : m.outcome ≠ .ended 0) : afterSource b text m =
    (.error (.commandFailed b.compile m.outcome), m.ran b.compile) := by
  rw [afterSource, runTools, if_pos h]

theorem afterSource_of_link {b : Plan} (h : m.outcome = .ended 0)
    (h' : (m.ran b.compile).outcome ≠ .ended 0) : afterSource b text m =
      (.error (.commandFailed b.link (m.ran b.compile).outcome), (m.ran b.compile).ran b.link) := by
  rw [afterSource, runTools, if_neg (not_not.2 h), if_pos h']

theorem afterSource_of_tools {b : Plan} (h : m.outcome = .ended 0)
    (h' : (m.ran b.compile).outcome = .ended 0) :
    afterSource b text m = match save b.delivered text ((m.ran b.compile).ran b.link) with
      | (.error e, m) => (.error e, m)
      | (.ok source, m) => (.ok [b.installer, source], m) := by
  rw [afterSource, runTools, if_neg (not_not.2 h), if_neg (not_not.2 h')]

theorem afterSource_eq_ok {b : Plan} {outputs : List Path}
    (h : afterSource b text m = (Except.ok outputs, m')) :
    m.outcome = .ended 0 ∧ (m.ran b.compile).outcome = .ended 0 ∧
      outputs = [b.installer, b.delivered] ∧
      save b.delivered text ((m.ran b.compile).ran b.link) = (Except.ok b.delivered, m') := by
  by_cases hcompile : m.outcome = .ended 0
  · by_cases hlink : (m.ran b.compile).outcome = .ended 0
    · rw [afterSource_of_tools hcompile hlink] at h
      split at h
      · cases (Prod.mk.inj h).1
      · next source m₂ hsave =>
          obtain ⟨houtputs, rfl⟩ := Prod.mk.inj h
          obtain ⟨rfl, -⟩ := save_eq_ok hsave
          exact ⟨hcompile, hlink, (Except.ok.inj houtputs).symm, hsave⟩
    · rw [afterSource_of_link hcompile hlink] at h
      cases (Prod.mk.inj h).1
  · rw [afterSource_of_compile hcompile] at h
    cases (Prod.mk.inj h).1

theorem afterSource_eq_error {b : Plan} {e : Failure}
    (h : afterSource b text m = (Except.error e, m')) :
    (∃ command outcome, outcome ≠ .ended 0 ∧ e = .commandFailed command outcome) ∨
      ∃ path f, e = writeFailure path f := by
  by_cases hcompile : m.outcome = .ended 0
  · by_cases hlink : (m.ran b.compile).outcome = .ended 0
    · rw [afterSource_of_tools hcompile hlink] at h
      split at h
      · next f m₂ hsave =>
          obtain ⟨f', -, rfl, -⟩ := save_eq_error hsave
          exact .inr ⟨_, f', (Except.error.inj (Prod.mk.inj h).1).symm⟩
      · cases (Prod.mk.inj h).1
    · rw [afterSource_of_link hcompile hlink] at h
      exact .inl ⟨_, _, hlink, (Except.error.inj (Prod.mk.inj h).1).symm⟩
  · rw [afterSource_of_compile hcompile] at h
    exact .inl ⟨_, _, hcompile, (Except.error.inj (Prod.mk.inj h).1).symm⟩

theorem afterSource_commandFailed {b : Plan} {command : List String} {outcome : Outcome}
    (h : afterSource b text m = (Except.error (.commandFailed command outcome), m')) :
    outcome ≠ .ended 0 := by
  rcases afterSource_eq_error h with ⟨_, _, houtcome, he⟩ | ⟨path, f, he⟩
  · obtain ⟨-, rfl⟩ := Failure.commandFailed.inj he
    exact houtcome
  · exact absurd he.symm (writeFailure_ne_commandFailed path f command outcome)

theorem afterSource_commands (b : Plan) (text : String) (m : Machine) :
    (afterSource b text m).2.commands =
      m.commands ++ if m.outcome = .ended 0 then [b.compile, b.link] else [b.compile] := by
  by_cases hcompile : m.outcome = .ended 0
  · rw [if_pos hcompile, ← ran_ran_commands]
    by_cases hlink : (m.ran b.compile).outcome = .ended 0
    · rw [afterSource_of_tools hcompile hlink,
        ← save_commands b.delivered text ((m.ran b.compile).ran b.link)]
      rcases save b.delivered text ((m.ran b.compile).ran b.link) with ⟨_ | _, m₂⟩ <;> rfl
    · rw [afterSource_of_link hcompile hlink]
  · rw [if_neg hcompile, afterSource_of_compile hcompile, ran_commands]

theorem runTools_continues (b : Plan) (m : Machine) : m.Continues (runTools b m).2 := by
  rw [runTools]
  split
  · exact ⟨.refl _, rfl⟩
  · split <;> exact ⟨.refl _, rfl⟩

/-! ## One step after the other -/

theorem buildInstaller_of_find_error {e : Failure}
    (h : Toolchain.find m.store m.here m.onWindows m.environment o.wixBin = .error e) :
    Build.buildInstaller p o.sourceRoot o.outDir o.wixBin m = (Except.error e, m) := by
  apply Action.bind_of_error
  rw [Build.findTools_apply, h]

theorem buildInstaller_of_source_error {e : Failure}
    (h : Toolchain.find m.store m.here m.onWindows m.environment o.wixBin = .ok tools)
    (hsource : Build.writeSource p o.sourceRoot (o.outDir.child "wix") true m =
      (Except.error e, m')) :
    Build.buildInstaller p o.sourceRoot o.outDir o.wixBin m = (Except.error e, m') := by
  have hfind : Build.findTools o.wixBin m = (Except.ok tools, m) := by
    rw [Build.findTools_apply, h]
  rw [Build.buildInstaller, Action.bind_of_ok hfind, Action.bind_of_error hsource]

theorem buildInstaller_of_source
    (h : Toolchain.find m.store m.here m.onWindows m.environment o.wixBin = .ok tools)
    (hsource : Build.writeSource p o.sourceRoot (o.outDir.child "wix") true m =
      (Except.ok (plan o p m.onWindows tools).source, m₁)) (hwindows : m₁.onWindows = m.onWindows) :
    Build.buildInstaller p o.sourceRoot o.outDir o.wixBin m =
      runTools (plan o p m.onWindows tools) m₁ := by
  have hfind : Build.findTools o.wixBin m = (Except.ok tools, m) := by
    rw [Build.findTools_apply, h]
  rw [Build.buildInstaller, Action.bind_of_ok hfind, Action.bind_of_ok hsource,
    Action.bind_of_ok (get_apply m₁), hwindows]
  -- From here on it does not matter how the paths were made.
  change (Machine.run (plan o p m.onWindows tools).compile >>= fun _ ↦
    Machine.run (plan o p m.onWindows tools).link >>= fun _ ↦
      pure (plan o p m.onWindows tools).installer : Job Path) m₁ = _
  generalize plan o p m.onWindows tools = b
  rw [Action.bind_apply, run_apply, runTools]
  by_cases hcompile : m₁.outcome = .ended 0
  · rw [if_pos hcompile, if_neg (not_not.2 hcompile)]
    dsimp only
    rw [Action.bind_apply, run_apply]
    by_cases hlink : (m₁.ran b.compile).outcome = .ended 0
    · rw [if_pos hlink, if_neg (not_not.2 hlink)]
      rfl
    · rw [if_neg hlink, if_pos hlink]
  · rw [if_neg hcompile, if_pos hcompile]

theorem makeOutputs_of_wxsOnly (h : o.wxsOnly = true) (p : Package) (m : Machine) :
    makeOutputs o p m = match Build.writeSource p o.sourceRoot o.outDir false m with
      | (.error e, m) => (Except.error e, m)
      | (.ok source, m) => (Except.ok [source], m) := by
  rw [makeOutputs, if_pos h, Action.bind_apply]
  rcases Build.writeSource p o.sourceRoot o.outDir false m with ⟨_ | _, m⟩ <;> rfl

theorem makeOutputs_of_installer_error (hfull : o.wxsOnly = false) {e : Failure}
    (h : Build.buildInstaller p o.sourceRoot o.outDir o.wixBin m = (Except.error e, m')) :
    makeOutputs o p m = (Except.error e, m') := by
  rw [makeOutputs, if_neg (by simp [hfull]), Action.bind_of_error h]

theorem makeOutputs_of_installer (hfull : o.wxsOnly = false) {installer : Path}
    (h : Build.buildInstaller p o.sourceRoot o.outDir o.wixBin m = (Except.ok installer, m')) :
    makeOutputs o p m = match Build.writeSource p o.sourceRoot o.outDir true m' with
      | (.error e, m) => (Except.error e, m)
      | (.ok source, m) => (Except.ok [installer, source], m) := by
  rw [makeOutputs, if_neg (by simp [hfull]), Action.bind_of_ok h, Action.bind_apply]
  rcases Build.writeSource p o.sourceRoot o.outDir true m' with ⟨_ | _, m⟩ <;> rfl

/-- The second rendering gives the text of the first one, so all that follows is settled when the
source has been written. -/
theorem makeOutputs_of_source (hfull : o.wxsOnly = false)
    (hfind : Toolchain.find m.store m.here m.onWindows m.environment o.wixBin = .ok tools)
    (htext : Source.text p (Build.fileSource m o.sourceRoot true) = .ok text)
    (hsave : save (plan o p m.onWindows tools).source text m =
      (Except.ok (plan o p m.onWindows tools).source, m₁)) :
    makeOutputs o p m = afterSource (plan o p m.onWindows tools) text m₁ := by
  have hsource : Build.writeSource p o.sourceRoot (o.outDir.child "wix") true m =
      (Except.ok (plan o p m.onWindows tools).source, m₁) := by
    rw [Build.writeSource_apply, htext]
    exact hsave
  have hwindows : m₁.onWindows = m.onWindows := by
    obtain ⟨-, s, -, rfl⟩ := save_eq_ok hsave
    rfl
  have hbuild := buildInstaller_of_source hfind hsource hwindows
  -- No file has gone since the first rendering, so the second one finds the same files.
  have hcontinues :=
    (Continues.save hsave).trans (runTools_continues (plan o p m.onWindows tools) m₁)
  rw [afterSource]
  rcases htools : runTools (plan o p m.onWindows tools) m₁ with ⟨e | installer, m₂⟩
  · rw [htools] at hbuild
    exact makeOutputs_of_installer_error hfull hbuild
  · rw [htools] at hbuild hcontinues
    rw [makeOutputs_of_installer hfull hbuild, Build.writeSource_apply,
      Build.text_of_continues hcontinues htext]
    rfl

/-- A full build that has not written its source has started no command, and has changed no file
when there is a mistake in the configuration. -/
theorem makeOutputs_cases (hfull : o.wxsOnly = false) (p : Package) (m : Machine) :
    (∃ e s, makeOutputs o p m = (Except.error e, m.withStore s) ∧
      (∀ command outcome, e ≠ .commandFailed command outcome) ∧
      ∀ c, e = .configuration c → s = m.store) ∨
    ∃ tools text m₁,
      Toolchain.find m.store m.here m.onWindows m.environment o.wixBin = .ok tools ∧
      Source.text p (Build.fileSource m o.sourceRoot true) = .ok text ∧
      save (plan o p m.onWindows tools).source text m =
        (Except.ok (plan o p m.onWindows tools).source, m₁) ∧
      makeOutputs o p m = afterSource (plan o p m.onWindows tools) text m₁ := by
  cases hfind : Toolchain.find m.store m.here m.onWindows m.environment o.wixBin with
  | error e =>
      have h := makeOutputs_of_installer_error hfull (buildInstaller_of_find_error (p := p) hfind)
      exact .inl ⟨e, m.store, h, (Toolchain.find_noCommandFails _ _ _ _ _).ne hfind, fun _ _ ↦ rfl⟩
  | ok tools =>
      have hsource := Build.writeSource_apply p o.sourceRoot (o.outDir.child "wix") true m
      cases htext : Source.text p (Build.fileSource m o.sourceRoot true) with
      | error e =>
          rw [htext] at hsource
          have h := makeOutputs_of_installer_error hfull
            (buildInstaller_of_source_error hfind hsource)
          have hfiles := Build.fileSource_noCommandFails m o.sourceRoot true
          exact .inl ⟨e, m.store, h, (Source.text_noCommandFails p hfiles).ne htext, fun _ _ ↦ rfl⟩
      | ok text =>
          rw [htext] at hsource
          rcases hsave : save (plan o p m.onWindows tools).source text m with ⟨e | path, m₁⟩
          · obtain ⟨f, s, rfl, rfl⟩ := save_eq_error hsave
            have h := makeOutputs_of_installer_error hfull
              (buildInstaller_of_source_error hfind (hsource.trans hsave))
            exact .inl ⟨_, s, h, writeFailure_ne_commandFailed _ _,
              fun c hc ↦ absurd hc (writeFailure_ne_configuration _ _ c)⟩
          · obtain ⟨rfl, -⟩ := save_eq_ok hsave
            exact .inr ⟨tools, text, m₁, rfl, rfl, hsave,
              makeOutputs_of_source hfull hfind htext hsave⟩

/-! ## What may come of it -/

theorem makeOutputs_eq_ok {outputs : List Path} (h : makeOutputs o p m = (Except.ok outputs, m')) :
    outputs = (if o.wxsOnly then [".wxs"] else [".msi", ".wxs"]).map
      (Build.outputPath o.outDir p) := by
  cases hfull : o.wxsOnly with
  | true =>
      rw [makeOutputs_of_wxsOnly hfull] at h
      split at h
      · cases (Prod.mk.inj h).1
      · next path m₁ hsource =>
          obtain ⟨hpaths, -⟩ := Prod.mk.inj h
          obtain ⟨rfl, -⟩ := Build.writeSource_eq_ok hsource
          exact (Except.ok.inj hpaths).symm
  | false =>
      rcases makeOutputs_cases hfull p m with
        ⟨e, s, hmake, -, -⟩ | ⟨tools, text, m₁, -, -, -, hmake⟩
      · rw [hmake] at h
        cases (Prod.mk.inj h).1
      · rw [hmake] at h
        obtain ⟨-, -, rfl, -⟩ := afterSource_eq_ok h
        rfl

theorem makeOutputs_commandFailed {command : List String} {outcome : Outcome}
    (h : makeOutputs o p m = (Except.error (.commandFailed command outcome), m')) :
    outcome ≠ .ended 0 := by
  cases hfull : o.wxsOnly with
  | true =>
      rw [makeOutputs_of_wxsOnly hfull] at h
      split at h
      · next e m₁ hsource =>
          have he := Except.error.inj (Prod.mk.inj h).1
          exact absurd he (Build.writeSource_ne_commandFailed hsource command outcome)
      · cases (Prod.mk.inj h).1
  | false =>
      rcases makeOutputs_cases hfull p m with
        ⟨e, s, hmake, he, -⟩ | ⟨tools, text, m₁, -, -, -, hmake⟩
      · rw [hmake] at h
        exact absurd (Except.error.inj (Prod.mk.inj h).1) (he command outcome)
      · rw [hmake] at h
        exact afterSource_commandFailed h

end Program

end WixAuthoring
