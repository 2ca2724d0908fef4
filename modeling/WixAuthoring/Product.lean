import WixAuthoring.Package.Scope
import WixAuthoring.Version.Reading

namespace WixAuthoring

/-!
# The product

What the installer of Octobuild holds: the console program and its license, the libraries that hook
into MSBuild as a feature of their own, and two environment variables that point to them.
-/

namespace Product

def name : String := "Octobuild"

def manufacturer : String := "Artem V. Navrotskiy"

def urlInfoAbout : String := "https://github.com/bozaro/octobuild"

def upgradeGuid : Guid where
  octets := [0xb4, 0x50, 0x52, 0x33, 0x63, 0x77, 0x40, 0x6b, 0x95, 0x5b, 0x25, 0x47, 0xd8, 0x6a, 0x99,
    0xa7]
  length_octets := rfl

def licenseFile : String := "LICENSE.rtf"

def applicationFolder : String := "APPLICATIONFOLDER"

def target64 : String := "target\\x86_64-pc-windows-gnu\\release"

def target32 : String := "target\\i686-pc-windows-gnu\\release"

def builder : Feature where
  name := "Octobuild Builder"
  allowChange := false
  attributes := [("AllowAdvertise", "no")]

def integration : Feature where
  name := "MSBuild integration"

def builderRef : FeatureRef := 0

def integrationRef : FeatureRef := 1

/-- The variables, before they are declared for each scope. -/
def environment : List EnvironmentVariable :=
  [{ feature := some builderRef, name := "PATH", value := "[" ++ applicationFolder ++ "]",
     part := .last },
   { feature := some builderRef, name := "OCTOBUILD", value := "[" ++ applicationFolder ++ "]" }]

def tree : List Entry :=
  [.file { source := target64 ++ "\\xgConsole.exe", feature := some builderRef },
   .file { source := "LICENSE", feature := some builderRef },
   .directory "msbuild"
     [.file { source := target64 ++ "\\octobuild.dll", name := some "octobuild.x64.dll" },
      .file { source := target32 ++ "\\octobuild.dll", name := some "octobuild.x86.dll" },
      .file { source := "wixcs\\octobuild.targets" }]
     (some integrationRef) none]

/-- The dialogs set the folder for a whole machine to the one for 32-bit programs. It is put right in
each of the two sequences. -/
def folderCorrection (sequence : String) : SetProperty where
  name := "WixPerMachineFolder"
  value := "[ProgramFiles64Folder][ApplicationFolderName]"
  sequence := sequence
  after := "WixSetDefaultPerMachineFolder"

def broadcast : CustomAction where
  id := "BroadcastSettingChange"
  dllEntry := "WixBroadcastEnvironmentChange"
  after := "InstallFinalize"

def entries : List Entry :=
  [.property ⟨"ApplicationFolderName", name⟩, .property ⟨"WixAppFolder", "WixPerMachineFolder"⟩,
   .directory name tree none (some applicationFolder)] ++
  (EnvironmentVariable.expandAll environment).map .environment ++
  [.setProperty (folderCorrection "ui"), .setProperty (folderCorrection "execute"),
   .customAction broadcast]

/-- The package of a version. Its files are named by the token, the way the manifest spells the
version. -/
def package (version : Version) (token : Option String) : Package :=
  let token := (given token).getD version.text
  { name := name
    guid := upgradeGuid
    version := version
    features := [builder, integration]
    entries := entries
    manufacturer := manufacturer
    urlInfoAbout := urlInfoAbout
    licenseFile := some licenseFile
    packageAttributes := [("InstallPrivileges", "elevated"), ("InstallScope", "perMachine")]
    lightOptions := ["-sval"]
    outFileName := some ("octobuild-" ++ token)
    versionToken := some token }

end Product

end WixAuthoring
