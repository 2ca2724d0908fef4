import WixAuthoring.Proofs.Pipeline

namespace WixAuthoring

/-!
# Mistakes come first

A mistake in the configuration is found before anything is written or started. All that it leaves
behind is its entry in the journal.
-/

/-- Holds when an entry may have been added to the file that a path leads to, directories may have
been made for that file, and all else is as it was. -/
def Store.LogsAtMost (here : Location) (p : Path) (entry : List UInt8) (s t : Store) : Prop :=
  ∀ place, t.get? place = s.get? place ∨
    (s.get? place = none ∧ t.get? place = some .directory ∧
      ∃ q : Path, q.IsAbove p.parent ∧ t.locate here .look q.text = .ok (.object place .directory)) ∨
    ∃ content executable,
      (s.get? place = none ∧ content = [] ∨ s.get? place = some (.file content executable)) ∧
      t.locate here .look p.text = .ok (.object place (.file (content ++ entry) executable))

namespace Store.LogsAtMost

variable {here place : Location} {p q : Path} {entry : List UInt8} {s t : Store}
  {object : StoreObject}

theorem grows (h : LogsAtMost here p entry s t) : s.Grows t := by
  intro place object hget
  rcases h place with hsame | ⟨hnone, -⟩ | ⟨content, executable, hbefore, hlogged⟩
  · exact ⟨object, hsame.trans hget, rfl⟩
  · rw [hnone] at hget
    cases hget
  · have hentry := get?_of_locate_file hlogged rfl
    rcases hbefore with ⟨hnone, -⟩ | hbefore
    · rw [hnone] at hget
      cases hget
    · rw [hbefore] at hget
      obtain rfl := Option.some.inj hget
      exact ⟨_, hentry, rfl⟩

/-- What an entry changes is what its own path leads to. -/
theorem same_or_logged (h : LogsAtMost here p entry s t) (hfile : object.isFile = true)
    (hget : t.get? place = some object) :
    s.get? place = some object ∨ t.locate here .look p.text = .ok (.object place object) := by
  rcases h place with hsame | ⟨-, hmade, -⟩ | ⟨content, executable, -, hlogged⟩
  · exact .inl (hsame.symm.trans hget)
  · rw [hget] at hmade
    cases hmade
    cases hfile
  · have hentry := get?_of_locate_file hlogged rfl
    rw [hget] at hentry
    rw [Option.some.inj hentry]
    exact .inr hlogged

theorem file_before (h : LogsAtMost here p entry s t) (hfile : object.isFile = true)
    (hlocate : t.locate here .look q.text = .ok (.object place object)) :
    s.get? place = some object ∨ t.Meet here q.text p.text := by
  rcases h.same_or_logged hfile (get?_of_locate_file hlocate hfile) with hsame | hlogged
  · exact .inl hsame
  · exact .inr ⟨place, object, hlocate, hlogged⟩

theorem file_after (h : LogsAtMost here p entry s t) (hfile : object.isFile = true)
    (hlocate : s.locate here .look q.text = .ok (.object place object)) :
    t.locate here .look q.text = .ok (.object place object) ∨ t.Meet here q.text p.text := by
  obtain ⟨later, hlater, hsame⟩ := locate_of_grows h.grows hlocate
  rcases h.file_before ((StoreObject.isFile_of_outline hsame).trans hfile) hlater with hget | hmeet
  · have hbefore := get?_of_locate_file hlocate hfile
    rw [hget] at hbefore
    rw [← Option.some.inj hbefore]
    exact .inl hlater
  · exact .inr hmeet

end Store.LogsAtMost

namespace Program

open CommandLine Machine

variable {o : Options} {p : Package} {m m' : Machine} {arguments : List String}
  {e : ConfigurationError}

theorem makeOutputs_eq_configuration
    (h : makeOutputs o p m = (Except.error (.configuration e), m')) : m' = m := by
  cases hfull : o.wxsOnly with
  | true =>
      rw [makeOutputs_of_wxsOnly hfull] at h
      split at h
      · next f m₁ hsource =>
          obtain ⟨hf, rfl⟩ := Prod.mk.inj h
          obtain rfl := Except.error.inj hf
          exact (Build.writeSource_eq_configuration hsource).1
      · cases (Prod.mk.inj h).1
  | false =>
      rcases makeOutputs_cases hfull p m with
        ⟨f, s, hmake, -, hs⟩ | ⟨tools, text, m₁, -, -, -, hmake⟩
      · rw [hmake] at h
        obtain ⟨hf, rfl⟩ := Prod.mk.inj h
        rw [hs e (Except.error.inj hf)]
        rfl
      · rw [hmake] at h
        rcases afterSource_eq_error h with ⟨command, status, -, he⟩ | ⟨path, f, he⟩
        · cases he
        · exact absurd he.symm (writeFailure_ne_configuration path f e)

theorem build_eq_configuration (h : build o m = (Except.error (.configuration e), m')) :
    ∃ printed, m' = { m with printed := printed } := by
  rw [build_apply] at h
  split at h
  · obtain ⟨-, rfl⟩ := Prod.mk.inj h
    exact ⟨_, rfl⟩
  · next token version hmanifest =>
      split at h
      · next f m₁ hmake =>
          obtain ⟨hf, rfl⟩ := Prod.mk.inj h
          obtain rfl := Except.error.inj hf
          rw [makeOutputs_eq_configuration hmake]
          exact ⟨_, rfl⟩
      · cases (Prod.mk.inj h).1

/-- A mistake is logged and told, and that is all. -/
theorem recover_eq_of_configuration (e : ConfigurationError) (m : Machine) : ∃ s printed,
    recover (.configuration e) m = (.code 2,
      ({ m with store := s, printed := printed } : Machine).told ("error: " ++ e.message)) ∧
    Store.LogsAtMost m.here (Journal.errorPath m.environment)
      (Utf8.encode (Journal.errorLine m.now e.message)) m.store s := by
  obtain ⟨r, s, happend, hextend⟩ :=
    extend_apply (Journal.errorPath m.environment) (Journal.errorLine m.now e.message) m
  rw [recover_configuration, hextend]
  dsimp only
  rw [toldAll_eq]
  exact ⟨s, _, rfl, Disk.rewrite_frame happend⟩

/-- A build that fails by a mistake in the configuration has started nothing and written nothing but
the entry in the journal. Once a source has been written, no such mistake can be found when it is
written again. -/
theorem mistakes_come_first (m : Machine) :
    (∀ arguments o e m₀, CommandLine.parse arguments = .ok o → o.SelectsBuild →
      perform o m = (Except.error (.configuration e), m₀) → ∃ s printed,
        run arguments m = (.code 2,
          ({ m with store := s, printed := printed } : Machine).told ("error: " ++ e.message)) ∧
        Store.LogsAtMost m.here (Journal.errorPath m.environment)
          (Utf8.encode (Journal.errorLine m.now e.message)) m.store s ∧
        (s.Meet m.here (Journal.recordPath m.environment).text
            (Journal.errorPath m.environment).text ∨
          ∀ place object, object.isFile = true →
            (m.store.locate m.here .look (Journal.recordPath m.environment).text =
                .ok (.object place object) →
              s.locate m.here .look (Journal.recordPath m.environment).text =
                .ok (.object place object)) ∧
            (s.locate m.here .look (Journal.recordPath m.environment).text =
                .ok (.object place object) →
              m.store.get? place = some object))) ∧
    ∀ p root between out path m₁ m₂,
      Build.writeSource p root between true m = (Except.ok path, m₁) →
      m₂.store = m₁.store → m₂.here = m₁.here → ∀ e m₃,
        Build.writeSource p root out true m₂ ≠ (Except.error (.configuration e), m₃) := by
  constructor
  · intro arguments o e m₀ hparse hbuild hmistake
    rw [perform_of_selectsBuild hbuild] at hmistake
    obtain ⟨printed, rfl⟩ := build_eq_configuration hmistake
    have hrun := run_of_parse hparse m
    rw [perform_of_selectsBuild hbuild, hmistake] at hrun
    dsimp only at hrun
    obtain ⟨s, later, hrecover, hlogs⟩ :=
      recover_eq_of_configuration e { m with printed := printed }
    refine ⟨s, later, hrun.trans hrecover, hlogs, or_iff_not_imp_left.2 fun hmeet ↦ ?_⟩
    intro place object hfile
    constructor
    · intro hlocate
      exact (hlogs.file_after hfile hlocate).resolve_right hmeet
    · intro hlocate
      exact (hlogs.file_before hfile hlocate).resolve_right hmeet
  · intro p root between out path m₁ m₂ hsource hstore hhere e m₃ hagain
    have hcontinues := Build.writeSource_continues hsource
    obtain ⟨-, text, s, htext, -, -⟩ := Build.writeSource_eq_ok hsource
    -- What was found for the first writing is still there for the second one.
    have hsame : m.Continues m₂ := ⟨hstore ▸ hcontinues.grows, hhere.trans hcontinues.here_eq⟩
    obtain ⟨-, hmissing⟩ := Build.writeSource_eq_configuration hagain
    rw [Build.text_of_continues hsame htext] at hmissing
    cases hmissing

/-! ## A manifest without a version -/

def versionless (more : List (Location × StoreObject)) : Machine := manifestOnly [] more

theorem versionless_manifest (more : List (Location × StoreObject)) :
    manifestVersion (versionless more).store [] sourceOnly.manifest =
      .error (.configuration (.versionNotFound sourceOnly.manifest.text)) :=
  manifestVersion_of_no_token (manifestOnly_read [] more) rfl

theorem versionless_build (more : List (Location × StoreObject)) :
    build sourceOnly (versionless more) =
      (Except.error (.configuration (.versionNotFound sourceOnly.manifest.text)), versionless more) := by
  have hbuild := build_apply sourceOnly (versionless more)
  have hmanifest := versionless_manifest more
  change manifestVersion (versionless more).store (versionless more).here _ = _ at hmanifest
  rwa [hmanifest] at hbuild

theorem versionless_fails :
    (∃ s printed, run ["--wxs-only"] (versionless []) = (.code 2,
      ({ versionless [] with store := s, printed := printed } : Machine).told
        ("error: " ++ "No version line found in manifest: Cargo.toml"))) ∧
    ∃ m₁, Build.writeSource workshopPackage .current (workshopOptions.outDir.child "wix") true
        (workshop [] []) = (Except.ok workshopPlan.source, m₁) ∧
      ∀ e m₃, Build.writeSource workshopPackage .current workshopOptions.outDir true m₁ ≠
        (Except.error (.configuration e), m₃) := by
  have hmessage : (ConfigurationError.versionNotFound sourceOnly.manifest.text).message =
      "No version line found in manifest: Cargo.toml" := by decide +kernel
  constructor
  · obtain ⟨s, printed, hrun, -⟩ := (mistakes_come_first (versionless [])).1 ["--wxs-only"]
      sourceOnly (.versionNotFound sourceOnly.manifest.text) _ rfl (.inl rfl) (versionless_build [])
    rw [hmessage] at hrun
    exact ⟨s, printed, hrun⟩
  · obtain ⟨text, htext⟩ := workshop_text [] []
    have hsource := Build.writeSource_of_write htext (workshop_write [] text)
    exact ⟨_, hsource, (mistakes_come_first (workshop [] [])).2 workshopPackage .current
      (workshopOptions.outDir.child "wix") workshopOptions.outDir _ _ _ hsource rfl rfl⟩

/-- A journal in which the file for errors is a link to the record of the last build. -/
def linkedJournal : List (Location × StoreObject) :=
  [(["Octobuild"], .directory), (["Octobuild", "logs"], .directory),
   (["Octobuild", "logs", "last_build.json"], .file (Utf8.encode "\x7b\x7d") false),
   (["Octobuild", "logs", "errors.log"], .link "last_build.json")]

/-- A mistake is then logged in the record. -/
theorem linkedJournal_touched :
    (∃ m₀, perform sourceOnly (versionless linkedJournal) =
      (Except.error (.configuration (.versionNotFound sourceOnly.manifest.text)), m₀)) ∧
    (versionless linkedJournal).store.read [] (Journal.recordPath {}).text =
      .ok (Utf8.encode "\x7b\x7d") ∧
    ∃ m', run ["--wxs-only"] (versionless linkedJournal) = (.code 2, m') ∧
      m'.store.read [] (Journal.recordPath {}).text ≠ .ok (Utf8.encode "\x7b\x7d") := by
  have hlook (s : Store) (content : List UInt8) (h : s.walk .look Store.linkLimit []
      ["Octobuild", "logs", "last_build.json"] =
        .ok (.object ["Octobuild", "logs", "last_build.json"] (.file content false))) :
      s.read [] (Journal.recordPath {}).text = .ok content := by
    rw [Store.read, Store.locate_of_walk spelling.record h]
  have hparent : (versionless linkedJournal).store.isDirectory []
      (Journal.errorPath {}).parent.text = .ok true :=
    Store.isDirectory_of_walk spelling.logs rfl
  have hopens : (versionless linkedJournal).store.Opens [] (Journal.errorPath {}).text
      ["Octobuild", "logs", "last_build.json"] (Utf8.encode "\x7b\x7d") false :=
    .old (Store.locate_of_walk spelling.errors rfl)
  have hperform : perform sourceOnly (versionless linkedJournal) = _ :=
    versionless_build linkedJournal
  have hparse : CommandLine.parse ["--wxs-only"] = .ok sourceOnly := rfl
  have hrun := run_of_parse hparse (versionless linkedJournal)
  rw [hperform] at hrun
  dsimp only at hrun
  rw [recover_configuration] at hrun
  obtain ⟨r, s, happend, hextend⟩ := extend_apply
    (Journal.errorPath (versionless linkedJournal).environment)
    (Journal.errorLine (versionless linkedJournal).now
      (ConfigurationError.versionNotFound sourceOnly.manifest.text).message) (versionless linkedJournal)
  rw [Disk.append_eq_rewrite] at happend
  obtain ⟨-, rfl⟩ := Prod.mk.inj (happend.symm.trans (Disk.rewrite_of_opens hparent hopens _))
  rw [hextend] at hrun
  refine ⟨⟨_, hperform⟩, hlook _ _ rfl, _, hrun, ?_⟩
  have hentry : ∀ t : String, Utf8.encode ("[" ++ t) ≠ [] := by
    intro t
    rw [Utf8.encode_append]
    exact List.append_ne_nil_of_left_ne_nil (by decide) _
  rw [told_store, toldAll_store, withStore_store, hlook _ _ rfl]
  intro h
  have hempty := List.append_right_eq_self.1 (Except.ok.inj h)
  simp only [Journal.errorLine, String.append_assoc] at hempty
  exact hentry _ hempty

end Program

end WixAuthoring
