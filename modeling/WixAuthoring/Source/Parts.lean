import WixAuthoring.Package.Basic
import WixAuthoring.Source.Tree

namespace WixAuthoring.Source

/-!
# Parts of the product

The elements of a product that stand beside its tree and its features.
-/

open Xml

def programFilesFolder (platform : String) : String :=
  if platform = "x64" then "ProgramFiles64Folder" else "ProgramFilesFolder"

def packageElement (p : Package) : Element :=
  .leaf "Package"
    (Attributes.update
      [("InstallerVersion", "200"), ("Compressed", "yes"), ("Platform", p.platform)]
      p.packageAttributes)

def upgradeElement (u : MajorUpgrade) : Element :=
  .leaf "MajorUpgrade"
    [("Schedule", u.schedule), ("AllowSameVersionUpgrades", yesNo u.allowSameVersionUpgrades),
     ("DowngradeErrorMessage", u.downgradeErrorMessage)]

def propertyElement (id value : String) : Element :=
  .leaf "Property" [("Id", id), ("Value", value)]

/-- What the list of installed programs shows. -/
def controlPanelElements (p : Package) : List Element :=
  if p.urlInfoAbout = "" then [] else [propertyElement "ARPURLINFOABOUT" p.urlInfoAbout]

def targetElement (p : Package) (tree : List Element) : Element :=
  directoryElement "TARGETDIR" "SourceDir"
    [.branch "Directory" [("Id", programFilesFolder p.platform)] tree]

def setPropertyElement (s : SetProperty) : Element :=
  .textLeaf "SetProperty"
    [("Id", s.name), ("Action", s.actionId), ("Value", s.value), ("After", s.after),
     ("Sequence", s.sequence)]
    (s.condition.getD "")

def customActionElement (a : CustomAction) : Element :=
  .leaf "CustomAction"
    [("Id", a.id), ("BinaryKey", a.binaryKey), ("DllEntry", a.dllEntry), ("Execute", a.execute),
     ("Return", a.onReturn)]

def scheduleElement (a : CustomAction) : Element :=
  .textLeaf "Custom" [("Action", a.id), ("After", a.after)] a.condition

def actionElements (actions : List CustomAction) : List Element :=
  if actions = [] then []
  else actions.map customActionElement ++
    [.branch "InstallExecuteSequence" [] (actions.map scheduleElement)]

def uiElements (p : Package) : List Element :=
  (given p.ui).toList.map fun ui ↦ .leaf "UIRef" [("Id", ui)]

def productAttributes (p : Package) : Attributes :=
  [("Id", p.productCode), ("Name", p.name), ("Language", toString p.language),
   ("Version", p.installerVersion),
   ("Manufacturer", if p.manufacturer = "" then p.name else p.manufacturer),
   ("UpgradeCode", p.upgradeCode)]

end WixAuthoring.Source
