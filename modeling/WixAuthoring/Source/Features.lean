import WixAuthoring.Package.Basic
import WixAuthoring.Source.Component

namespace WixAuthoring.Source

/-!
# Features

Every component belongs to one feature: its own, one that a directory passes down, or the default one.
A feature refers to its components.
-/

open Xml

/-- The features that have been given components, each with its components. -/
abbrev Register := List (Option FeatureRef × List String)

/-- Gives a component to its feature. A feature that had none is added behind the others. -/
def register : Register → Membership → Register
  | [], m => [(m.feature, [m.component])]
  | (f, components) :: rest, m =>
    if f = m.feature then (f, components ++ [m.component]) :: rest
    else (f, components) :: register rest m

/-- The components of each feature. Features come in the order of their first component. -/
def byFeature (members : List Membership) : Register := members.foldl register []

def featureAttributes (f : Feature) : Attributes :=
  Attributes.update
    ([("Id", f.id), ("Title", f.name), ("Level", toString f.level),
      ("Absent", if f.allowChange then "allow" else "disallow")] ++
      (if f.description = "" then [] else [("Description", f.description)]))
    f.attributes

def featureElement (p : Package) (f : Option FeatureRef) (components : List String) : Element :=
  .branch "Feature" (featureAttributes (f.elim p.defaultFeature p.feature))
    (components.map fun id ↦ .leaf "ComponentRef" [("Id", id)])

def featureElements (p : Package) (members : List Membership) : List Element :=
  (byFeature members).map fun (f, components) ↦ featureElement p f components

end WixAuthoring.Source
