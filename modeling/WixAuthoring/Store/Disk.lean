import WixAuthoring.Store.Walk

namespace WixAuthoring

/-!
# Reading and writing

An action on a store gives a value or an error, and leaves a store in either case: the directories made
on the way stay when a later step fails. Writing goes through links and makes a file where none is.
-/

abbrev Disk (α : Type) := ExceptT StoreError (StateM Store) α

namespace Disk

def locate (here : Location) (purpose : Purpose) (path : String) : Disk Destination :=
  fun s ↦ (s.locate here purpose path, s)

def put (place : Location) (object : StoreObject) : Disk Unit := fun s ↦ (.ok (), s.put place object)

def isDirectory (here : Location) (path : String) : Disk Bool := fun s ↦ (s.isDirectory here path, s)

def createDirectory (here : Location) (path : String) : Disk Unit := do
  match ← locate here .name path with
  | .object _ _ => throw (.fault .alreadyThere path)
  | .vacant place => put place .directory

/-- Makes a directory, or keeps the one that is there. -/
def keepDirectory (here : Location) (path : String) : Disk Unit :=
  tryCatch (createDirectory here path) fun
    | .embeddedNull => throw .embeddedNull
    | .fault .notFound p => throw (.fault .notFound p)
    | error => do
      if ← isDirectory here path then pure () else throw error

/-- Makes the directory with the given names, the innermost first, and the missing ones above it. -/
def ensureParts (here : Location) (anchor : Anchor) : List String → Disk Unit
  | [] => keepDirectory here (Path.text ⟨anchor, []⟩)
  | name :: outer =>
    let path := Path.text ⟨anchor, (name :: outer).reverse⟩
    tryCatch (keepDirectory here path) fun
      | .fault .notFound _ => do
        ensureParts here anchor outer
        keepDirectory here path
      | error => throw error

/-- Makes a directory and the missing ones above it. -/
def ensureDirectory (here : Location) (p : Path) : Disk Unit :=
  ensureParts here p.anchor p.parts.reverse

/-- Replaces the content of a file by what `change` makes of it. A file that is not there is empty. -/
def revise (here : Location) (path : String) (change : List UInt8 → List UInt8) : Disk Unit := do
  match ← locate here .write path with
  | .vacant place => put place (.file (change []) false)
  | .object place (.file content executable) => put place (.file (change content) executable)
  | .object _ .directory => throw (.fault .isDirectory path)
  | .object _ (.link _) => throw (.fault .tooManyLinks path)
  | .object _ .device => pure ()

/-- Writes a file, after making the directory for it. -/
def write (here : Location) (p : Path) (content : List UInt8) : Disk Unit := do
  ensureDirectory here p.parent
  revise here p.text fun _ ↦ content

/-- Writes at the end of a file, after making the directory for it. -/
def append (here : Location) (p : Path) (content : List UInt8) : Disk Unit := do
  ensureDirectory here p.parent
  revise here p.text fun old ↦ old ++ content

end Disk

namespace Store

/-- The content of the file at a path. -/
def read (s : Store) (here : Location) (path : String) : Except StoreError (List UInt8) :=
  match s.locate here .look path with
  | .error e => .error e
  | .ok (.vacant _) => .error (.fault .notFound path)
  | .ok (.object _ (.file content _)) => .ok content
  | .ok (.object _ .directory) => .error (.fault .isDirectory path)
  | .ok (.object _ (.link _)) => .error (.fault .tooManyLinks path)
  | .ok (.object _ .device) => .ok []

end Store

end WixAuthoring
