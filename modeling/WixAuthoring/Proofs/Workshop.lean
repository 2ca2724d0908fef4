import WixAuthoring.Proofs.Outputs
import WixAuthoring.Proofs.Tools

namespace WixAuthoring

/-!
# A workshop

A machine with all that a full build of the program itself needs: the manifest, the tools, and the
files that go into the installer. What a run finds on it does not depend on what else is there.
-/

namespace Program

open CommandLine Machine

/-- The files that the installer of the program is built from. -/
def stock : List Location :=
  [["target", "x86_64-pc-windows-gnu", "release", "xgConsole.exe"], ["LICENSE"],
   ["target", "x86_64-pc-windows-gnu", "release", "octobuild.dll"],
   ["target", "i686-pc-windows-gnu", "release", "octobuild.dll"], ["wixcs", "octobuild.targets"],
   ["LICENSE.rtf"]]

def stockFiles : FileSource where
  root := .current
  place path :=
    if path.anchor = .relative && stock.contains path.parts then .ok ⟨.root, path.parts⟩
    else .error .noInstallDirectory

def workshopDirectories : List Location :=
  [["tools"], ["wixcs"], ["target"], ["target", "wix"], ["target", "x86_64-pc-windows-gnu"],
   ["target", "x86_64-pc-windows-gnu", "release"], ["target", "i686-pc-windows-gnu"],
   ["target", "i686-pc-windows-gnu", "release"]]

def workshopOptions : Options := { wixBin := some (.parse "tools") }

def workshopVersion : Version := ⟨0, [1, 2, 3], none, none, none, []⟩

def workshopPackage : Package := Product.package workshopVersion (some "1.2.3")

def workshopPlan : Plan := plan workshopOptions workshopPackage false (.parse "tools")

/-- How the paths are spelled that are looked up in a workshop. -/
structure Spelling : Prop where
  manifest : Store.Spells (Path.parse "Cargo.toml").text ["Cargo.toml"]
  compiler : Store.Spells (Toolchain.tool false (.parse "tools") Toolchain.compiler).text
    ["tools", "candle"]
  linker : Store.Spells (Toolchain.tool false (.parse "tools") Toolchain.linker).text
    ["tools", "light"]
  stock : ∀ place ∈ stock, Store.Spells (Path.text ⟨.relative, place⟩) place
  between : Store.Spells workshopPlan.source.parent.text ["target", "wix"]
  source : Store.Spells workshopPlan.source.text ["target", "wix", "octobuild-1.2.3.wxs"]
  target : Store.Spells workshopPlan.delivered.parent.text ["target"]
  delivered : Store.Spells workshopPlan.delivered.text ["target", "octobuild-1.2.3.wxs"]
  logs : Store.Spells (Journal.recordPath {}).parent.text ["Octobuild", "logs"]
  record : Store.Spells (Journal.recordPath {}).text ["Octobuild", "logs", "last_build.json"]
  errors : Store.Spells (Journal.errorPath {}).text ["Octobuild", "logs", "errors.log"]

theorem spelling : Spelling := by
  constructor <;> decide +kernel

def versionLine (token : String) : List UInt8 := Utf8.encode ("version = \"" ++ token ++ "\"\n")

theorem versionToken_versionLine : Manifest.versionToken (versionLine "1.2.3") = some "1.2.3" := by
  decide +kernel

def manifestOnly (content : List UInt8) (more : List (Location × StoreObject)) : Machine where
  store := ⟨(["Cargo.toml"], .file content false) :: more⟩
  here := []
  environment := {}
  now := ⟨2024, 1, 2, 3, 4, 5, 0⟩
  onWindows := false

theorem manifestOnly_read (content : List UInt8) (more : List (Location × StoreObject)) :
    (manifestOnly content more).store.read [] (Path.parse "Cargo.toml").text = .ok content := by
  have hlocate : (manifestOnly content more).store.locate [] .look (Path.parse "Cargo.toml").text =
      .ok (.object ["Cargo.toml"] (.file content false)) :=
    Store.locate_of_walk spelling.manifest rfl
  rw [Store.read, hlocate]

def sourceOnly : Options := { wxsOnly := true }

def workshopObjects : List (Location × StoreObject) :=
  workshopDirectories.map (·, .directory) ++ stock.map (·, .file [] false) ++
    [(["tools", "candle"], .file [] true), (["tools", "light"], .file [] true)]

/-- A machine that has all that a full build needs, and more. -/
def workshop (more : List (Location × StoreObject)) (statuses : List Outcome) : Machine :=
  { manifestOnly (versionLine "1.2.3") (workshopObjects ++ more) with statuses := statuses }

variable (more : List (Location × StoreObject)) (statuses : List Outcome)

theorem workshop_extends :
    (Build.fileSource (workshop more statuses) .current true).Extends stockFiles where
  root_eq := rfl
  place_eq path found h := by
    have hwalk : ∀ place ∈ stock, (workshop more statuses).store.walk .look Store.linkLimit []
        place = .ok (.object place (.file [] false)) := by
      intro place hplace
      simp only [stock, List.mem_cons, List.not_mem_nil, or_false] at hplace
      rcases hplace with rfl | rfl | rfl | rfl | rfl | rfl <;> rfl
    change (workshop more statuses).store.requireFile [] path = _
    simp only [stockFiles] at h
    split at h
    · next hpath =>
        obtain ⟨anchor, parts⟩ := path
        simp only [Bool.and_eq_true, decide_eq_true_eq, List.contains_iff_mem] at hpath
        obtain ⟨rfl, hplace⟩ := hpath
        have hfound := Store.file?_of_walk (spelling.stock parts hplace) (hwalk parts hplace) rfl
        rw [Store.requireFile, hfound]
        exact h
    · cases h

theorem exists_ok_of_isSome {α ε : Type} {x : Except ε α} (h : x.toOption.isSome = true) :
    ∃ a, x = .ok a := by
  cases x with
  | error e => cases h
  | ok a => exact ⟨a, rfl⟩

theorem workshop_text : ∃ text,
    Source.text workshopPackage (Build.fileSource (workshop more statuses) .current true) =
      .ok text := by
  have h : (Source.text workshopPackage stockFiles).toOption.isSome = true := by decide +kernel
  obtain ⟨text, htext⟩ := exists_ok_of_isSome h
  exact ⟨text, Source.text_of_extends (workshop_extends more statuses) htext⟩

theorem workshop_find :
    Toolchain.find (workshop more statuses).store [] false {} (some (.parse "tools")) =
      .ok (.parse "tools") := by
  let s := (workshop more statuses).store
  have hcompiler := Store.file?_of_walk (s := s) spelling.compiler rfl rfl
  have hlinker := Store.file?_of_walk (s := s) spelling.linker rfl rfl
  exact Toolchain.find_some_eq_ok_iff.2 ⟨rfl, ⟨_, hcompiler⟩, _, hlinker⟩

theorem workshop_manifest :
    manifestVersion (workshop more statuses).store [] workshopOptions.manifest =
      .ok ("1.2.3", workshopVersion) :=
  manifestVersion_eq_ok_iff.2
    ⟨versionLine "1.2.3", manifestOnly_read _ _, versionToken_versionLine, rfl⟩

/-- The store of a workshop in which the source has been written. -/
def workshopWritten (text : String) : Store :=
  (workshop [] []).store.put ["target", "wix", "octobuild-1.2.3.wxs"]
    (.file (Utf8.encode text) false)

theorem workshop_write (text : String) :
    Disk.write [] workshopPlan.source (Utf8.encode text) (workshop [] statuses).store =
      (Except.ok (), workshopWritten text) := by
  have hparent : (workshop [] statuses).store.isDirectory [] workshopPlan.source.parent.text =
      .ok true :=
    Store.isDirectory_of_walk spelling.between rfl
  have hopens : (workshop [] statuses).store.Opens [] workshopPlan.source.text
      ["target", "wix", "octobuild-1.2.3.wxs"] [] false :=
    .fresh (Store.locate_of_walk spelling.source rfl)
  exact Disk.write_of_opens hparent hopens _

end Program

end WixAuthoring
