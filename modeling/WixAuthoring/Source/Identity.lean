import WixAuthoring.Guid
import WixAuthoring.Identifier
import WixAuthoring.Package.Entry

namespace WixAuthoring.Source

/-!
# Identities

The identifiers and GUIDs of what is installed are drawn from names and from places in the tree alone,
so they stay when a product is released again.
-/

def componentId (id : String) : String := identifier ("Component." ++ id)

def componentGuid (package : Guid) (id : String) : String := (package.named id).braced

def fileId (directoryId installName : String) : String :=
  identifier (directoryId ++ "." ++ installName)

def directoryId (parentId name : String) (id : Option String) : String :=
  (given id).getD (identifier (parentId ++ "." ++ name))

def variableId (v : EnvironmentVariable) (index : Nat) : String :=
  identifier ("Env." ++ v.name ++ "." ++ (if v.system then "System" else "User") ++ "." ++
    toString index)

end WixAuthoring.Source
