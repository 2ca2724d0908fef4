import WixAuthoring.Package.Basic
import WixAuthoring.Package.Describe
import WixAuthoring.Source.Component
import WixAuthoring.Source.Files

namespace WixAuthoring.Source

/-!
# The tree of directories

A directory passes its identifier and its feature down to what it holds. The components of environment
variables all go into the first directory of the package, after what it holds itself.
-/

open Xml

def directoryElement (id name : String) (children : List Element) : Element :=
  .branch "Directory" [("Id", id), ("Name", name)] children

@[simp] theorem name_directoryElement (id name : String) (children : List Element) :
    (directoryElement id name children).name = "Directory" := rfl

@[simp] theorem children_directoryElement (id name : String) (children : List Element) :
    (directoryElement id name children).children = children := rfl

mutual

/-- The element of an entry of a directory, and the components in it. -/
def entry (p : Package) (files : FileSource) (parentId : String) (inherited : Option FeatureRef) :
    Entry → Except Failure (Element × List Membership)
  | .directory name inner own id => do
    let here := directoryId parentId name id
    let (children, members) ← entries p files here (own.or inherited) inner
    return (directoryElement here name children, members)
  | .file f => do
    let path ← files.find f.source
    let id := fileId parentId f.installName
    return (fileComponent p.guid id f.installName path, [⟨f.feature.or inherited, componentId id⟩])
  | other => .error (.unsupportedInDirectory (Describe.entry p.feature other))

def entries (p : Package) (files : FileSource) (parentId : String) (inherited : Option FeatureRef) :
    List Entry → Except Failure (List Element × List Membership)
  | [] => .ok ([], [])
  | e :: rest => do
    let (element, members) ← entry p files parentId inherited e
    let (elements, more) ← entries p files parentId inherited rest
    return (element :: elements, members ++ more)

end

/-- The components of variables, numbered on from a number, and the features they belong to. -/
def variablesFrom (package : Guid) :
    Nat → List EnvironmentVariable → List Element × List Membership
  | _, [] => ([], [])
  | n, v :: rest =>
    let (components, members) := variablesFrom package (n + 1) rest
    (variableComponent package v n :: components,
      ⟨v.feature, componentId (variableId v n)⟩ :: members)

/-- The components of variables go into the first directory, which has to be there for them. -/
def addVariables (package : Guid) (vs : List EnvironmentVariable) :
    List Element → Except Failure (List Element × List Membership)
  | [] => if vs = [] then .ok ([], []) else .error .noInstallDirectory
  | first :: rest =>
    let (components, members) := variablesFrom package 1 vs
    .ok (first.append components :: rest, members)

end WixAuthoring.Source
