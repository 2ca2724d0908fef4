import WixAuthoring.Broadcast
import WixAuthoring.Build
import WixAuthoring.CommandLine.Help
import WixAuthoring.CommandLine.Options
import WixAuthoring.Manifest
import WixAuthoring.Product

namespace WixAuthoring

/-!
# The program

Building, showing the version and telling the windows, as the command line asks. A mistake in the
configuration is logged and ends the program with code two; a tool that fails ends it with the code of
the tool. A tool that cannot be started is no failure that the program handles.
-/

namespace Program

open CommandLine

/-- The version token of a manifest and the version it stands for. -/
def readManifest (path : Path) : Job (String × Version) := do
  let token := Manifest.versionToken (← Machine.load path.text)
  let version ← Job.ofExcept (Manifest.requireVersion path.text token)
  return (token.getD "", version)

/-- Writes what the options ask for, and gives the paths of it. -/
def makeOutputs (o : Options) (p : Package) : Job (List Path) := do
  if o.wxsOnly then
    return [← Build.writeSource p o.sourceRoot o.outDir false]
  else
    let installer ← Build.buildInstaller p o.sourceRoot o.outDir o.wixBin
    let source ← Build.writeSource p o.sourceRoot o.outDir true
    return [installer, source]

def buildRecord (now : Moment) (o : Options) (token : String) (outputs : List Path) : Json.Value :=
  .object
    [("timestamp", .text (Journal.zonedStamp now)), ("version", .text token),
     ("manifest", .text o.manifest.text), ("outputs", .list (outputs.map fun p ↦ .text p.text)),
     ("wix_bin", o.wixBin.elim .null fun p ↦ .text p.text)]

def build (o : Options) : Job Int := do
  let (token, version) ← readManifest o.manifest
  Machine.print ("Octobuild version: " ++ token)
  let outputs ← makeOutputs o (Product.package version (some token))
  Journal.record (buildRecord (← get).now o token outputs)
  Machine.print ("\nBuild complete. Version: " ++ token)
  outputs.forM fun p ↦ Machine.print ("  " ++ p.text)
  return 0

def showVersion (o : Options) : Job Int := do
  let (token, _) ← readManifest o.manifest
  Machine.print token
  return 0

def broadcast : Job Int := do
  Broadcast.announce
  return 0

def perform (o : Options) : Job Int :=
  match o.command with
  | some .version => showVersion o
  | some .broadcast => broadcast
  | _ => build o

/-- How a run ends: with the code of the program, with a refusal of the command line, or with a failure
that the program does not handle. -/
inductive Ending where
  | code (n : Int)
  | refused (r : Refusal)
  | failed (e : Failure)

/-- Ends a run in which a job failed. -/
def recover : Failure → Effect Ending
  | .configuration e => do
    Journal.error e.message
    Machine.print ("error: " ++ e.message)
    return .code 2
  | .commandFailed _ (.ended status) => do
    Machine.print ("Build failed with exit code " ++ toString status)
    return .code status
  | e => return .failed e

def refuse (r : Refusal) : Effect Ending := do
  modify fun m ↦ { m with printed := m.printed ++ r.output, reported := m.reported ++ r.report }
  return .refused r

def run (arguments : List String) : Effect Ending := do
  match CommandLine.parse arguments with
  | .error r => refuse r
  | .ok o =>
    match ← (perform o).run with
    | .ok n => return .code n
    | .error e => recover e

end Program

end WixAuthoring
