import WixAuthoring.Source.Features
import WixAuthoring.Source.Files
import WixAuthoring.Source.Parts
import WixAuthoring.Source.Sorting
import WixAuthoring.Xml.Writing

namespace WixAuthoring.Source

/-!
# WiX sources

The document that the WiX tools compile: the package, its properties, the tree of directories, the
features, the actions, and what the dialogs need.
-/

open Xml

def xmlns : String := "http://schemas.microsoft.com/wix/2006/wi"

def licenseElements (p : Package) (files : FileSource) : Except Failure (List Element) :=
  match given p.licenseFile with
  | none => .ok []
  | some file => do
    let path ← files.find file
    return [.leaf "WixVariable" [("Id", "WixUILicenseRtf"), ("Value", path.text)]]

/-- The document of a package. -/
def element (p : Package) (files : FileSource) : Except Failure Element := do
  let sorted ← sortEntries p
  let (tree, members) ← entries p files "INSTALLDIR" none sorted.directories
  let (tree, more) ← addVariables p.guid sorted.environment tree
  let license ← licenseElements p files
  let product :=
    [packageElement p, .leaf "MediaTemplate" [("EmbedCab", "yes")]] ++
    p.majorUpgrade.toList.map upgradeElement ++ controlPanelElements p ++
    sorted.properties.map (fun e ↦ propertyElement e.name e.value) ++ [targetElement p tree] ++
    featureElements p (members ++ more) ++ sorted.setProperties.map setPropertyElement ++
    actionElements sorted.actions ++ license ++ uiElements p
  return .branch "Wix" [("xmlns", xmlns)] [.branch "Product" (productAttributes p) product]

/-- The text of the document of a package. -/
def text (p : Package) (files : FileSource) : Except Failure String := do
  let root ← element p files
  match document? root with
  | some text => return text
  | none => .error .unclosedNamespace

end WixAuthoring.Source
