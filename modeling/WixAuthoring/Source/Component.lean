import WixAuthoring.Path
import WixAuthoring.Source.Identity
import WixAuthoring.Xml.Element

namespace WixAuthoring.Source

/-!
# Components

One component for each file and one for each environment variable. The key path of a component is the
file it holds, or the component itself.
-/

open Xml

def yesNo (b : Bool) : String := if b then "yes" else "no"

/-- A component and the feature it belongs to, if it is given one. -/
structure Membership where
  feature : Option FeatureRef
  component : String
  deriving DecidableEq, Repr

def fileComponent (package : Guid) (id installName : String) (path : Path) : Element :=
  .branch "Component" [("Id", componentId id), ("Guid", componentGuid package id)]
    [.leaf "File"
      [("Id", id), ("Name", installName), ("Source", path.text), ("KeyPath", "yes")]]

@[simp] theorem name_fileComponent (package : Guid) (id installName : String) (path : Path) :
    (fileComponent package id installName path).name = "Component" := rfl

def variableElement (id : String) (v : EnvironmentVariable) : Element :=
  .leaf "Environment"
    [("Id", id), ("Name", v.name), ("Value", v.value), ("Permanent", yesNo v.permanent),
     ("Part", v.part.text), ("Action", v.action.text), ("System", yesNo v.system)]

def conditionElements (condition : Option String) : List Element :=
  (given condition).toList.map (.textLeaf "Condition" [])

def variableComponent (package : Guid) (v : EnvironmentVariable) (index : Nat) : Element :=
  let id := variableId v index
  .branch "Component"
    [("Id", componentId id), ("Guid", componentGuid package id), ("KeyPath", "yes")]
    (conditionElements v.condition ++ [variableElement id v])

@[simp] theorem name_variableComponent (package : Guid) (v : EnvironmentVariable) (index : Nat) :
    (variableComponent package v index).name = "Component" := rfl

end WixAuthoring.Source
