import WixAuthoring.Guid
import WixAuthoring.Package.Entry
import WixAuthoring.Version.Basic

namespace WixAuthoring

/-!
# Packages

An installer package: its entries, the table of its features, and what the product is called. The
product code is drawn from the version label, so building a release again gives the same product.
-/

structure MajorUpgrade where
  schedule : String := "afterInstallInitialize"
  downgradeErrorMessage : String :=
    "A later version of [ProductName] is already installed. Setup will now exit."
  allowSameVersionUpgrades : Bool := false
  deriving DecidableEq, Repr

structure Package where
  name : String
  guid : Guid
  version : Version
  features : List Feature := []
  entries : List Entry := []
  manufacturer : String := ""
  urlInfoAbout : String := ""
  licenseFile : Option String := none
  ui : Option String := some "WixUI_Advanced"
  platform : String := "x64"
  packageAttributes : Attributes := []
  majorUpgrade : Option MajorUpgrade := some {}
  lightOptions : List String := []
  outFileName : Option String := none
  versionToken : Option String := none
  language : Int := 1033

namespace Package

/-- The feature at a place of the table. Past its end there is a feature without a name. -/
def feature (p : Package) (f : FeatureRef) : Feature := p.features.getD f ⟨"", true, true, [], ""⟩

/-- The feature of whatever is given none. -/
def defaultFeature (p : Package) : Feature := { name := p.name, allowChange := false }

def upgradeCode (p : Package) : String := p.guid.braced

/-- The version as it is written in the manifest, when that is known. -/
def versionLabel (p : Package) : String := (given p.versionToken).getD p.version.text

def productCode (p : Package) : String := (p.guid.named p.versionLabel).braced

def installerVersion (p : Package) : String := p.version.installerText

/-- The name of what is built, without an extension. -/
def outputStem (p : Package) : String :=
  (given p.outFileName).getD (p.name ++ "-" ++ p.versionLabel)

/-- The features that the entries mention, in the order of first mention. -/
def mentionedFeatures (p : Package) : List FeatureRef := firsts (Entry.allMentions p.entries)

end Package

end WixAuthoring
