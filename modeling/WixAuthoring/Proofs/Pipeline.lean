import WixAuthoring.Proofs.Records

namespace WixAuthoring

/-!
# The pipeline of a full build

The first step of a full build that fails is the last one that is taken, and it decides how the run
ends. Only when nothing has failed the record is kept and the outputs are told.
-/

namespace Program

open CommandLine Machine

variable {o : Options} {m m' : Machine} {b : Plan} {text token : String} {arguments : List String}
  {ending : Ending}

/-- What becomes of a run when its outputs have been asked for. -/
def finish (o : Options) (token : String) : Except Failure (List Path) × Machine → Ending × Machine
  | (.ok outputs, m) => (.code 0, concluded o token outputs m)
  | (.error e, m) => recover e m

theorem run_build (hparse : CommandLine.parse arguments = .ok o) (hbuild : o.SelectsBuild)
    {version : Version}
    (hmanifest : manifestVersion m.store m.here o.manifest = .ok (token, version)) :
    run arguments m = finish o token (makeOutputs o (Product.package version (some token))
      (m.told ("Octobuild version: " ++ token))) := by
  rw [run_of_parse hparse, perform_of_selectsBuild hbuild, build_apply, hmanifest]
  dsimp only
  rcases makeOutputs o (Product.package version (some token))
    (m.told ("Octobuild version: " ++ token)) with ⟨_ | _, m⟩ <;> rfl

theorem run_of_manifest_error (hparse : CommandLine.parse arguments = .ok o)
    (hbuild : o.SelectsBuild) {e : Failure}
    (hmanifest : manifestVersion m.store m.here o.manifest = .error e) :
    run arguments m = recover e m := by
  rw [run_of_parse hparse, perform_of_selectsBuild hbuild, build_apply, hmanifest]

theorem manifestVersion_noCommandFails (s : Store) (here : Location) (path : Path) :
    NoCommandFails (manifestVersion s here path) := by
  apply NoCommandFails.bind (.store _)
  intro content
  exact .bind (Manifest.requireVersion_noCommandFails _ _) fun _ ↦ .ok _

/-- Without a version in the manifest no run ends well. -/
theorem recover_of_manifest_error {s : Store} {here : Location} {path : Path} {e : Failure}
    (h : manifestVersion s here path = .error e) (m : Machine) : (recover e m).1 ≠ .code 0 := by
  apply recover_ne_zero
  intro command outcome he
  exact absurd he ((manifestVersion_noCommandFails s here path).ne h command outcome)

/-- A run that ends well has made all that it was asked for. -/
theorem run_eq_zero (hparse : CommandLine.parse arguments = .ok o) (hbuild : o.SelectsBuild)
    (hrun : run arguments m = (.code 0, m')) : ∃ token version outputs m₁,
      manifestVersion m.store m.here o.manifest = .ok (token, version) ∧
      makeOutputs o (Product.package version (some token))
        (m.told ("Octobuild version: " ++ token)) = (Except.ok outputs, m₁) ∧
      m' = concluded o token outputs m₁ := by
  cases hmanifest : manifestVersion m.store m.here o.manifest with
  | error e =>
      rw [run_of_manifest_error hparse hbuild hmanifest] at hrun
      have hzero := recover_of_manifest_error hmanifest m
      exact absurd (congrArg Prod.fst hrun) hzero
  | ok found =>
      obtain ⟨token, version⟩ := found
      rw [run_build hparse hbuild hmanifest] at hrun
      rcases hmake : makeOutputs o (Product.package version (some token))
        (m.told ("Octobuild version: " ++ token)) with ⟨e | outputs, m₁⟩
      · rw [hmake, finish] at hrun
        have hnonzero : (recover e m₁).1 ≠ .code 0 := by
          apply recover_ne_zero
          rintro command outcome rfl
          exact makeOutputs_commandFailed hmake
        exact absurd (congrArg Prod.fst hrun) hnonzero
      · rw [hmake, finish] at hrun
        exact ⟨token, version, outputs, m₁, rfl, hmake, (Prod.mk.inj hrun).2.symm⟩

/-- What is told and kept at the end of a build that has succeeded. -/
theorem concluded_recording (o : Options) (token : String) (outputs : List Path) (m : Machine) :
    ∃ s lines, Journal.Recording (buildRecord m.now o token outputs) m s lines ∧
      concluded o token outputs m = (m.withStore s).toldAll (lines ++ summary token outputs) := by
  have hwritable := isWritable_buildRecord m.now o token outputs
  have hshort : ¬(buildRecord m.now o token outputs).HasLongInteger := by
    rw [← Json.isWritable_eq_false_iff, hwritable]
    exact Bool.noConfusion
  obtain ⟨s, lines, hrecord, hcomes⟩ := Journal.record_of_short hshort m
  rw [Journal.record_apply, Journal.writeRecord_apply hwritable] at hrecord
  refine ⟨s, lines, hcomes, ?_⟩
  rw [concluded, toldAll_append, toldAll_append, (Prod.mk.inj hrecord).2]

/-- How a full build goes on from the machine in which its source has just been written: the first
tool that fails ends it at once. If none does, the source is written beside the installer, and only
then the record is kept and the outputs are told. -/
structure StopsAtFirstFailure (o : Options) (token : String) (b : Plan) (text : String)
    (m : Machine) (ending : Ending) (m' : Machine) : Prop where
  commands_eq : m'.commands =
    m.commands ++ if m.outcome = .ended 0 then [b.compile, b.link] else [b.compile]
  compile_failed : m.outcome ≠ .ended 0 →
    EndsWith b.compile (m.ran b.compile) m.outcome ending m'
  link_failed : m.outcome = .ended 0 → (m.ran b.compile).outcome ≠ .ended 0 →
    EndsWith b.link ((m.ran b.compile).ran b.link) (m.ran b.compile).outcome ending m'
  not_delivered : m.outcome = .ended 0 → (m.ran b.compile).outcome = .ended 0 → ∀ e m₂,
    save b.delivered text ((m.ran b.compile).ran b.link) = (Except.error e, m₂) →
      ending = .failed e ∧ m' = m₂
  delivered : m.outcome = .ended 0 → (m.ran b.compile).outcome = .ended 0 → ∀ m₂,
    save b.delivered text ((m.ran b.compile).ran b.link) = (Except.ok b.delivered, m₂) →
      ending = .code 0 ∧ ∃ s lines,
        Journal.Recording (.object
          [("timestamp", .text (Journal.zonedStamp m.now)), ("version", .text token),
           ("manifest", .text o.manifest.text),
           ("outputs", .list [.text b.installer.text, .text b.delivered.text]),
           ("wix_bin", o.wixBin.elim .null fun p ↦ .text p.text)]) m₂ s lines ∧
        m' = (m₂.withStore s).toldAll (lines ++ ["\nBuild complete. Version: " ++ token,
          "  " ++ b.installer.text, "  " ++ b.delivered.text])
  succeeded : ending = .code 0 → m.outcome = .ended 0 ∧ (m.ran b.compile).outcome = .ended 0 ∧
    ∃ m₂, save b.delivered text ((m.ran b.compile).ran b.link) = (Except.ok b.delivered, m₂)

theorem finish_commands (o : Options) (token : String)
    (made : Except Failure (List Path) × Machine) :
    (finish o token made).2.commands = made.2.commands := by
  rcases made with ⟨e | outputs, m⟩
  · exact recover_commands e m
  · exact concluded_commands o token outputs m

theorem stopsAtFirstFailure_of_finish
    (h : finish o token (afterSource b text m) = (ending, m')) :
    StopsAtFirstFailure o token b text m ending m' where
  commands_eq := by
    have hcommands := finish_commands o token (afterSource b text m)
    rwa [h, afterSource_commands] at hcommands
  compile_failed hcompile := by
    rw [afterSource_of_compile hcompile] at h
    have hends := recover_commandFailed hcompile b.compile (m.ran b.compile)
    rwa [show recover _ _ = (ending, m') from h] at hends
  link_failed hcompile hlink := by
    rw [afterSource_of_link hcompile hlink] at h
    have hends := recover_commandFailed hlink b.link ((m.ran b.compile).ran b.link)
    rwa [show recover _ _ = (ending, m') from h] at hends
  not_delivered hcompile hlink e m₂ hsave := by
    obtain ⟨f, s, rfl, -⟩ := save_eq_error hsave
    rw [afterSource_of_tools hcompile hlink, hsave, finish, recover_writeFailure] at h
    obtain ⟨rfl, rfl⟩ := Prod.mk.inj h
    exact ⟨rfl, rfl⟩
  delivered hcompile hlink m₂ hsave := by
    rw [afterSource_of_tools hcompile hlink, hsave, finish] at h
    obtain ⟨rfl, rfl⟩ := Prod.mk.inj h
    obtain ⟨-, s, -, rfl⟩ := save_eq_ok hsave
    exact ⟨rfl, concluded_recording o token [b.installer, b.delivered]
      (((m.ran b.compile).ran b.link).withStore s)⟩
  succeeded hzero := by
    -- the only code that a failure brings with it is that of a command, which is not zero
    subst hzero
    rcases hafter : afterSource b text m with ⟨e | outputs, m₂⟩
    · rw [hafter, finish] at h
      refine absurd (congrArg Prod.fst h) (recover_ne_zero ?_ m₂)
      rintro command outcome rfl
      exact afterSource_commandFailed hafter
    · obtain ⟨hcompile, hlink, -, hsave⟩ := afterSource_eq_ok hafter
      exact ⟨hcompile, hlink, m₂, hsave⟩

/-- Holds when a full build has found its version and its tools and has written its source, so that it
goes on to the tools. -/
structure ReachesTools (o : Options) (m : Machine) (token : String) (version : Version)
    (tools : Path) (text : String) (m₁ : Machine) : Prop where
  manifest_eq : manifestVersion m.store m.here o.manifest = .ok (token, version)
  find_eq : Toolchain.find m.store m.here m.onWindows m.environment o.wixBin = .ok tools
  render_eq : Build.render (Product.package version (some token)) o.sourceRoot true m =
    (Except.ok text, m)
  save_eq : save (plan o (Product.package version (some token)) m.onWindows tools).source text
    (m.told ("Octobuild version: " ++ token)) =
      (Except.ok (plan o (Product.package version (some token)) m.onWindows tools).source, m₁)

variable {version : Version} {tools : Path} {m₁ : Machine}

theorem run_of_reachesTools (hparse : CommandLine.parse arguments = .ok o)
    (hbuild : o.SelectsBuild) (hfull : o.wxsOnly = false)
    (h : ReachesTools o m token version tools text m₁) :
    run arguments m = finish o token
      (afterSource (plan o (Product.package version (some token)) m.onWindows tools) text m₁) := by
  have hrender := h.render_eq
  rw [Build.render_apply] at hrender
  rw [run_build hparse hbuild h.manifest_eq]
  exact congrArg _ (makeOutputs_of_source hfull h.find_eq (Prod.mk.inj hrender).1 h.save_eq)

/-- A build that does not reach the tools starts no command and does not end well. -/
theorem run_of_not_reachesTools (hparse : CommandLine.parse arguments = .ok o)
    (hbuild : o.SelectsBuild) (hfull : o.wxsOnly = false)
    (h : ∀ token version tools text m₁, ¬ReachesTools o m token version tools text m₁)
    (hrun : run arguments m = (ending, m')) : m'.commands = m.commands ∧ ending ≠ .code 0 := by
  cases hmanifest : manifestVersion m.store m.here o.manifest with
  | error e =>
      rw [run_of_manifest_error hparse hbuild hmanifest] at hrun
      have hzero := recover_of_manifest_error hmanifest m
      have hcommands := recover_commands e m
      rw [hrun] at hzero hcommands
      exact ⟨hcommands, hzero⟩
  | ok found =>
      obtain ⟨token, version⟩ := found
      rw [run_build hparse hbuild hmanifest] at hrun
      rcases makeOutputs_cases hfull (Product.package version (some token))
        (m.told ("Octobuild version: " ++ token)) with
        ⟨e, s, hmake, he, -⟩ | ⟨tools, text, m₁, hfind, htext, hsave, -⟩
      · rw [hmake, finish] at hrun
        have hzero := recover_ne_zero (fun command outcome hc ↦ absurd hc (he command outcome))
          ((m.told ("Octobuild version: " ++ token)).withStore s)
        have hcommands := recover_commands e ((m.told ("Octobuild version: " ++ token)).withStore s)
        rw [hrun] at hzero hcommands
        exact ⟨hcommands, hzero⟩
      · have hrender : Build.render (Product.package version (some token)) o.sourceRoot true m =
            (Except.ok text, m) := Build.render_of_text htext
        exact absurd ⟨hmanifest, hfind, hrender, hsave⟩ (h token version tools text m₁)

/-- A build that does not reach the tools starts no command and does not end well. From the tools on
the first failure decides. -/
theorem full_build_stops_at_first_failure (hparse : CommandLine.parse arguments = .ok o)
    (hbuild : o.SelectsBuild) (hfull : o.wxsOnly = false)
    (hrun : run arguments m = (ending, m')) :
    ((∀ token version tools text m₁, ¬ReachesTools o m token version tools text m₁) ∧
      m'.commands = m.commands ∧ ending ≠ .code 0) ∨
    ∃ token version tools text m₁, ReachesTools o m token version tools text m₁ ∧
      m₁.commands = m.commands ∧ m₁.statuses = m.statuses ∧
      let b := plan o (Product.package version (some token)) m.onWindows tools
      b.Spelled o token m.onWindows tools ∧ StopsAtFirstFailure o token b text m₁ ending m' := by
  by_cases hreaches : ∃ token version tools text m₁, ReachesTools o m token version tools text m₁
  · obtain ⟨token, version, tools, text, m₁, h⟩ := hreaches
    obtain ⟨content, -, hfound, -⟩ := manifestVersion_eq_ok_iff.1 h.manifest_eq
    have htoken := Manifest.versionToken_ne_empty hfound
    rw [run_of_reachesTools hparse hbuild hfull h] at hrun
    obtain ⟨-, s, -, hm₁⟩ := save_eq_ok h.save_eq
    refine .inr ⟨token, version, tools, text, m₁, h, ?_, ?_,
      plan_spelled o version htoken m.onWindows tools, stopsAtFirstFailure_of_finish hrun⟩
    · rw [hm₁]
      rfl
    · rw [hm₁]
      rfl
  · have hnone : ∀ token version tools text m₁, ¬ReachesTools o m token version tools text m₁ :=
      fun token version tools text m₁ h ↦ hreaches ⟨token, version, tools, text, m₁, h⟩
    exact .inl ⟨hnone, run_of_not_reachesTools hparse hbuild hfull hnone hrun⟩

/-! ## A workshop -/

variable (more : List (Location × StoreObject)) (statuses : List Outcome)

theorem workshop_reachesTools {text : String} {s : Store}
    (htext : Source.text workshopPackage (Build.fileSource (workshop more statuses) .current true) =
      .ok text)
    (hwrite : Disk.write [] workshopPlan.source (Utf8.encode text) (workshop more statuses).store =
      (Except.ok (), s)) :
    ReachesTools workshopOptions (workshop more statuses) "1.2.3" workshopVersion (.parse "tools")
      text (((workshop more statuses).told ("Octobuild version: " ++ "1.2.3")).withStore s) where
  manifest_eq := workshop_manifest more statuses
  find_eq := workshop_find more statuses
  render_eq := Build.render_of_text htext
  save_eq := save_of_write hwrite

/-- What a full build in the workshop comes to when its source can be written. -/
theorem workshop_run {text : String} {s : Store}
    (htext : Source.text workshopPackage (Build.fileSource (workshop more statuses) .current true) =
      .ok text)
    (hwrite : Disk.write [] workshopPlan.source (Utf8.encode text) (workshop more statuses).store =
      (Except.ok (), s)) :
    run ["--wix-bin", "tools"] (workshop more statuses) =
      finish workshopOptions "1.2.3" (afterSource workshopPlan text
        (((workshop more statuses).told ("Octobuild version: " ++ "1.2.3")).withStore s)) := by
  have hparse : CommandLine.parse ["--wix-bin", "tools"] = .ok workshopOptions := rfl
  exact run_of_reachesTools hparse (.inl rfl) rfl
    (workshop_reachesTools more statuses htext hwrite)

/-- The linker fails with seven, or the compiler may not be started. -/
theorem workshop_stops :
    (∃ m', run ["--wix-bin", "tools"] (workshop [] ([0, 7] : List Int)) = (.code 7, m') ∧
      m'.commands.length = 2) ∧
    ∃ e m', run ["--wix-bin", "tools"] (workshop [] [.notStarted 13 "Permission denied"]) =
      (.failed e, m') ∧ e.message = "[Errno 13] Permission denied: 'tools/candle'" ∧
      m'.commands.length = 1 := by
  have hparse : CommandLine.parse ["--wix-bin", "tools"] = .ok workshopOptions := rfl
  have hstages (statuses : List Outcome) : ∃ token version tools text m₁ ending m',
      run ["--wix-bin", "tools"] (workshop [] statuses) = (ending, m') ∧
      tools = .parse "tools" ∧ m₁.commands = [] ∧ m₁.statuses = statuses ∧
      let b := plan workshopOptions (Product.package version (some token)) false tools
      b.Spelled workshopOptions token false tools ∧
      StopsAtFirstFailure workshopOptions token b text m₁ ending m' := by
    obtain ⟨text, htext⟩ := workshop_text [] statuses
    have hthere := workshop_reachesTools [] statuses htext (workshop_write statuses text)
    rcases hrun : run ["--wix-bin", "tools"] (workshop [] statuses) with ⟨ending, m'⟩
    rcases full_build_stops_at_first_failure hparse (.inl rfl) rfl hrun with
      ⟨hnone, -⟩ | ⟨token, version, tools, text, m₁, hreached, hcommands, hstatuses, hspelled, h⟩
    · exact absurd hthere (hnone _ _ _ _ _)
    · have htools := Except.ok.inj (hreached.find_eq.symm.trans (workshop_find [] statuses))
      exact ⟨token, version, tools, text, m₁, ending, m', rfl, htools, hcommands, hstatuses,
        hspelled, h⟩
  constructor
  · obtain ⟨_, _, _, _, m₁, _, _, hrun, -, hcommands, hstatuses, -, h⟩ :=
      hstages ([0, 7] : List Int)
    have hcompile : m₁.outcome = .ended 0 := by
      rw [Machine.outcome, hstatuses]
      rfl
    have hlink (command : List String) : (m₁.ran command).outcome = .ended 7 := by
      change m₁.statuses.tail.headD (.ended 0) = .ended 7
      rw [hstatuses]
      rfl
    have hends := h.link_failed hcompile (by rw [hlink]; decide)
    rw [hlink] at hends
    cases hends
    refine ⟨_, hrun, ?_⟩
    rw [h.commands_eq, hcommands, if_pos hcompile]
    rfl
  · obtain ⟨_, _, _, _, m₁, _, _, hrun, rfl, hcommands, hstatuses, hspelled, h⟩ :=
      hstages [.notStarted 13 "Permission denied"]
    have hcompile : m₁.outcome = .notStarted 13 "Permission denied" := by
      rw [Machine.outcome, hstatuses]
      rfl
    have hends := h.compile_failed (by rw [hcompile]; decide)
    rw [hcompile] at hends
    cases hends
    have hmessage (command : List String) :
        (Failure.commandFailed command (.notStarted 13 "Permission denied")).message =
          describeError 13 "Permission denied" (command.headD "") := rfl
    refine ⟨_, _, hrun, ?_, ?_⟩
    · rw [hmessage, hspelled.compile_eq]
      change describeError 13 "Permission denied" ((Path.parse "tools").child "candle").text = _
      decide +kernel
    · rw [h.commands_eq, hcommands, hcompile]
      rfl

end Program

end WixAuthoring
