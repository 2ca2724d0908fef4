import WixAuthoring.Store.Disk

namespace WixAuthoring

/-!
# Setting a store up

Files, directories and links are laid out one by one, the directories above them made as needed. What
stands in the way of a file or a link is replaced.
-/

/-- Something to lay out. -/
inductive Fixture where
  | file (path : String) (content : List UInt8) (executable : Bool)
  | directory (path : String)
  | link (path : String) (target : String)
  deriving DecidableEq, Repr

namespace Disk

def fill (here : Location) (path : String) (content : List UInt8) (executable : Bool) : Disk Unit := do
  revise here path fun _ ↦ content
  match ← locate here .look path with
  | .object place (.file content _) => put place (.file content executable)
  | _ => pure ()

def layOut (here : Location) : Fixture → Disk Unit
  | .file path content executable => do
    ensureDirectory here (Path.parse path).parent
    fill here path content executable
  | .directory path => ensureDirectory here (Path.parse path)
  | .link path target => do
    ensureDirectory here (Path.parse path).parent
    match ← locate here .name path with
    | .vacant place => put place (.link target)
    | .object place _ => put place (.link target)

/-- Takes away what a path names, without following a link at its end. -/
def remove (here : Location) (path : String) : Disk Unit := do
  match ← locate here .name path with
  | .vacant _ => throw (.fault .notFound path)
  | .object place _ => fun s ↦ (.ok (), s.erase place)

end Disk

/-- The store after something is laid out. What cannot be laid out is left away. -/
def Store.layOut (s : Store) (here : Location) (fixture : Fixture) : Store :=
  ((Disk.layOut here fixture).run s).2

def Store.remove (s : Store) (here : Location) (path : String) : Store :=
  ((Disk.remove here path).run s).2

end WixAuthoring
