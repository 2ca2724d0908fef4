import WixAuthoring.Store.Walk

namespace WixAuthoring

/-!
# What changed in a store

Two states of a store are compared below a directory. A change names its path from there; changes come
in the order of their paths.
-/

inductive StoreChange where
  | file (path : String) (content : List UInt8)
  | directory (path : String)
  | link (path : String) (target : String)
  | device (path : String)
  | gone (path : String)
  deriving DecidableEq, Repr

namespace StoreChange

def path : StoreChange → String
  | .file path _ => path
  | .directory path => path
  | .link path _ => path
  | .device path => path
  | .gone path => path

def ofObject (path : String) : StoreObject → StoreChange
  | .file content _ => .file path content
  | .directory => .directory path
  | .link target => .link path target
  | .device => .device path

end StoreChange

namespace Store

/-- The path of a location from a directory above it. -/
def pathBelow (base place : Location) : Option String :=
  if base.isPrefixOf place && base ≠ place then some (Text.join "/" (place.drop base.length)) else none

/-- The objects below a directory, each as it would be reported when it is new. -/
def survey (s : Store) (base : Location) : List StoreChange :=
  s.objects.filterMap fun (place, object) ↦ (pathBelow base place).map (StoreChange.ofObject · object)

def changes (before after : Store) (base : Location) : List StoreChange :=
  let old := before.survey base
  let new := after.survey base
  let fresh := new.filter fun change ↦ !old.contains change
  let gone := old.filterMap fun change ↦
    if (new.map StoreChange.path).contains change.path then none else some (.gone change.path)
  (fresh ++ gone).mergeSort fun a b ↦ a.path ≤ b.path

end Store

end WixAuthoring
