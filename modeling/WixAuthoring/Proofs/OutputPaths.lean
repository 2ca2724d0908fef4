import WixAuthoring.Proofs.PathTexts
import WixAuthoring.Proofs.Pipeline

namespace WixAuthoring

/-!
# Where outputs are

What is built is named by the version token of the manifest. It lies directly in the output
directory exactly when there is no slash in the token.
-/

namespace Path

variable {directory : Path} {name s : String}

/-- The path of what lies directly in a directory. -/
def entry (directory : Path) (name : String) : Path :=
  ⟨directory.anchor, directory.parts ++ [name]⟩

theorem child_eq_entry (hrelative : anchorOf s.toList = .relative) (hname : isName s = true)
    (h : '/' ∉ s.toList) : directory.child s = directory.entry s := by
  rw [child_of_relative hrelative, names_eq_singleton hname h, entry]

theorem slash_not_mem_of_child_eq_entry (hrelative : anchorOf s.toList = .relative)
    (h : directory.child s = directory.entry name) : '/' ∉ name.toList := by
  rw [child_of_relative hrelative, entry] at h
  have hnames := List.append_cancel_left (Path.mk.inj h).2
  exact slash_not_mem_of_mem_names (hnames ▸ List.mem_singleton_self name)

end Path

namespace Build

variable {p : Package} {token extension : String}

theorem anchorOf_octobuild (s : String) :
    Path.anchorOf ("octobuild-" ++ s).toList = .relative := by
  rw [String.toList_append]
  rfl

theorem isName_octobuild (s : String) : Path.isName ("octobuild-" ++ s) = true := by
  have hne {t : String} (ht : t.toList.length < 2) : "octobuild-" ++ s ≠ t := by
    rintro rfl
    have hlong : 10 ≤ ("octobuild-" ++ s).toList.length := by simp
    omega
  simp [Path.isName, hne]

/-- Only a slash in the token leads out of a directory. -/
theorem outputPath_eq_entry_iff (directory : Path) (hstem : p.outputStem = "octobuild-" ++ token)
    (hextension : '/' ∉ extension.toList) :
    outputPath directory p extension = directory.entry ("octobuild-" ++ token ++ extension) ↔
      '/' ∉ token.toList := by
  rw [outputPath, hstem, String.append_assoc]
  constructor
  · intro h hslash
    apply Path.slash_not_mem_of_child_eq_entry (anchorOf_octobuild _) h
    simp [hslash]
  · intro h
    apply Path.child_eq_entry (anchorOf_octobuild _) (isName_octobuild _)
    simp [h, hextension]

end Build

namespace Program

open CommandLine Machine

variable {o : Options} {p : Package} {m m' : Machine} {arguments : List String}
  {outputs : List Path}

/-- A build that ends well has put its outputs directly into the output directory, and what comes
before them into the directory for that, exactly when there is no slash in the version token. -/
theorem outputs_in_directory_iff (hparse : CommandLine.parse arguments = .ok o)
    (hbuild : o.SelectsBuild) (hrun : run arguments m = (.code 0, m')) :
    ∃ content token version outputs m₁,
      m.store.read m.here o.manifest.text = .ok content ∧
      Manifest.versionToken content = some token ∧
      makeOutputs o (Product.package version (some token))
        (m.told ("Octobuild version: " ++ token)) = (Except.ok outputs, m₁) ∧
      m' = concluded o token outputs m₁ ∧
      (outputs = (if o.wxsOnly then [".wxs"] else [".msi", ".wxs"]).map (fun extension ↦
        o.outDir.entry ("octobuild-" ++ token ++ extension)) ↔ '/' ∉ token.toList) ∧
      ∀ tools, let b := plan o (Product.package version (some token)) m.onWindows tools
        (b.source = (o.outDir.entry "wix").entry ("octobuild-" ++ token ++ ".wxs") ↔
          '/' ∉ token.toList) ∧
        (b.object = (o.outDir.entry "wix").entry ("octobuild-" ++ token ++ ".wixobj") ↔
          '/' ∉ token.toList) := by
  obtain ⟨token, version, outputs, m₁, hmanifest, hmake, hm'⟩ := run_eq_zero hparse hbuild hrun
  obtain ⟨content, hread, htoken, -⟩ := manifestVersion_eq_ok_iff.1 hmanifest
  have hstem := Product.outputStem_package version (Manifest.versionToken_ne_empty htoken)
  have hmsi (directory : Path) := Build.outputPath_eq_entry_iff directory hstem
    (show '/' ∉ ".msi".toList by decide)
  have hwxs (directory : Path) := Build.outputPath_eq_entry_iff directory hstem
    (show '/' ∉ ".wxs".toList by decide)
  have hobject (directory : Path) := Build.outputPath_eq_entry_iff directory hstem
    (show '/' ∉ ".wixobj".toList by decide)
  have hbetween : o.outDir.child "wix" = o.outDir.entry "wix" :=
    Path.child_eq_entry rfl (by decide) (by decide)
  refine ⟨content, token, version, outputs, m₁, hread, htoken, hmake, hm', ?_, fun tools ↦ ?_⟩
  · rw [makeOutputs_eq_ok hmake]
    split <;> simp [hmsi, hwxs]
  · rw [← hbetween]
    exact ⟨hwxs _, hobject _⟩

/-! ## Two manifests -/

/-- A build of the source alone succeeds when its text can be written. -/
theorem run_sourceOnly {token text : String} {version : Version}
    {more : List (Location × StoreObject)} {s : Store}
    (htoken : Manifest.versionToken (versionLine token) = some token)
    (hversion : Manifest.tokenVersion (Path.parse "Cargo.toml").text token = .ok version)
    (htext : Source.text (Product.package version (some token)) (.unchecked .current) = .ok text)
    (hwrite : Disk.write [] (Build.outputPath (.parse "target")
        (Product.package version (some token)) ".wxs") (Utf8.encode text)
      (manifestOnly (versionLine token) more).store = (Except.ok (), s)) :
    run ["--wxs-only"] (manifestOnly (versionLine token) more) =
      (.code 0, concluded sourceOnly token
        [Build.outputPath (.parse "target") (Product.package version (some token)) ".wxs"]
        (((manifestOnly (versionLine token) more).told ("Octobuild version: " ++ token)).withStore
          s)) := by
  have hmanifest : manifestVersion (manifestOnly (versionLine token) more).store []
      sourceOnly.manifest = .ok (token, version) :=
    manifestVersion_eq_ok_iff.2 ⟨_, manifestOnly_read _ _, htoken, hversion⟩
  have hsource : Build.writeSource (Product.package version (some token)) sourceOnly.sourceRoot
      sourceOnly.outDir false
      ((manifestOnly (versionLine token) more).told ("Octobuild version: " ++ token)) = _ :=
    Build.writeSource_of_write htext hwrite
  have hparse : CommandLine.parse ["--wxs-only"] = .ok sourceOnly := rfl
  have hrun := run_build hparse (.inl rfl) hmanifest
  rw [makeOutputs_of_wxsOnly rfl, hsource] at hrun
  exact hrun

theorem plainToken_in_directory : ∃ m' outputs m₁,
    run ["--wxs-only"] (manifestOnly (versionLine "1.2.3") [(["target"], .directory)]) =
      (.code 0, m') ∧
    m' = concluded sourceOnly "1.2.3" outputs m₁ ∧
    outputs = [sourceOnly.outDir.entry ("octobuild-" ++ "1.2.3" ++ ".wxs")] := by
  have hversion : Manifest.tokenVersion (Path.parse "Cargo.toml").text "1.2.3" =
      .ok workshopVersion := rfl
  have hsome : (Source.text (Product.package workshopVersion (some "1.2.3"))
      (.unchecked .current)).toOption.isSome = true := by decide +kernel
  obtain ⟨text, htext⟩ := exists_ok_of_isSome hsome
  have hparent : (manifestOnly (versionLine "1.2.3") [(["target"], .directory)]).store.isDirectory
      [] workshopPlan.delivered.parent.text = .ok true :=
    Store.isDirectory_of_walk spelling.target rfl
  have hopens : (manifestOnly (versionLine "1.2.3") [(["target"], .directory)]).store.Opens []
      workshopPlan.delivered.text
      ["target", "octobuild-1.2.3.wxs"] [] false :=
    .fresh (Store.locate_of_walk spelling.delivered rfl)
  have hrun := run_sourceOnly versionToken_versionLine hversion htext
    (Disk.write_of_opens hparent hopens _)
  obtain ⟨content, token, version, outputs, m₁, hread, hfound, -, hm', hiff, -⟩ :=
    outputs_in_directory_iff (o := sourceOnly) rfl (.inl rfl) hrun
  obtain rfl := Except.ok.inj ((manifestOnly_read _ _).symm.trans hread)
  obtain rfl := Option.some.inj (versionToken_versionLine.symm.trans hfound)
  exact ⟨_, outputs, m₁, hrun, hm', hiff.2 (by decide)⟩

/-- A machine whose manifest has a token with a slash and two dots after the release number. -/
def slashed : Machine :=
  manifestOnly (versionLine "1.0.0-/../../x")
    [(["target"], .directory), (["target", "octobuild-1.0.0-"], .directory)]

def slashedVersion : Version := ⟨0, [1, 0, 0], none, none, none, []⟩

def slashedPackage : Package := Product.package slashedVersion (some "1.0.0-/../../x")

/-- Such a token is accepted, and leads out of the output directory. -/
theorem slashed_leads_out : ∃ text m₁,
    run ["--wxs-only"] slashed = (.code 0, concluded sourceOnly "1.0.0-/../../x"
      [⟨.relative, ["target", "octobuild-1.0.0-", "..", "..", "x.wxs"]⟩] m₁) ∧
    slashed.store.get? ["x.wxs"] = none ∧
    m₁.store.get? ["x.wxs"] = some (.file (Utf8.encode text) false) := by
  have htoken : Manifest.versionToken (versionLine "1.0.0-/../../x") = some "1.0.0-/../../x" := by
    decide +kernel
  have hversion : Manifest.tokenVersion (Path.parse "Cargo.toml").text "1.0.0-/../../x" =
      .ok slashedVersion := rfl
  have hpath : Build.outputPath (.parse "target") slashedPackage ".wxs" =
      ⟨.relative, ["target", "octobuild-1.0.0-", "..", "..", "x.wxs"]⟩ := by decide +kernel
  have hsome : (Source.text slashedPackage (.unchecked .current)).toOption.isSome = true := by
    decide +kernel
  obtain ⟨text, htext⟩ := exists_ok_of_isSome hsome
  have hparent : slashed.store.isDirectory []
      (Build.outputPath (.parse "target") slashedPackage ".wxs").parent.text = .ok true :=
    Store.isDirectory_of_walk
      (show Store.Spells _ ["target", "octobuild-1.0.0-", "..", ".."] by decide +kernel) rfl
  have hopens : slashed.store.Opens []
      (Build.outputPath (.parse "target") slashedPackage ".wxs").text ["x.wxs"] [] false :=
    .fresh (Store.locate_of_walk
      (show Store.Spells _ ["target", "octobuild-1.0.0-", "..", "..", "x.wxs"] by decide +kernel) rfl)
  have hrun := run_sourceOnly htoken hversion htext (Disk.write_of_opens hparent hopens _)
  rw [slashedPackage] at hpath
  rw [hpath] at hrun
  exact ⟨text, _, hrun, rfl, Store.get?_put_self _ (by simp) _⟩

end Program

end WixAuthoring
