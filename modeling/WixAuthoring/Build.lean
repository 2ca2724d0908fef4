import WixAuthoring.Source.Document
import WixAuthoring.Toolchain

namespace WixAuthoring

/-!
# Building

A package is written as a source beside the installer that is built from it. The installer is compiled
and linked from a source of its own, in a directory for what lies between.
-/

namespace Build

def fileSource (m : Machine) (root : Path) (check : Bool) : FileSource :=
  if check then .checked m.store m.here root else .unchecked root

/-- The text of the source of a package. -/
def render (p : Package) (root : Path) (check : Bool) : Job String := do
  Job.ofExcept (Source.text p (fileSource (← get) root check))

def outputPath (directory : Path) (p : Package) (extension : String) : Path :=
  directory.child (p.outputStem ++ extension)

/-- Writes the source of a package. -/
def writeSource (p : Package) (root out : Path) (check : Bool) : Job Path := do
  let text ← render p root check
  Machine.save (outputPath out p ".wxs") text

def findTools (directory : Option Path) : Job Path := do
  let m ← get
  Job.ofExcept (Toolchain.find m.store m.here m.onWindows m.environment directory)

/-- Builds the installer of a package. -/
def buildInstaller (p : Package) (root out : Path) (tools : Option Path) : Job Path := do
  let directory ← findTools tools
  let between := out.child "wix"
  let source ← writeSource p root between true
  let object := outputPath between p ".wixobj"
  let installer := outputPath out p ".msi"
  let onWindows := (← get).onWindows
  Machine.run (Toolchain.compileCommand onWindows directory p.platform object source)
  Machine.run (Toolchain.linkCommand onWindows directory p.lightOptions installer object)
  return installer

end Build

end WixAuthoring
