import WixAuthoring.Path
import WixAuthoring.Store.Basic
import WixAuthoring.Store.Error

namespace WixAuthoring

/-!
# Walking a path

A path is walked name by name. Two dots lead to the directory above, wherever links have led to; a link
sends the walk on from its target, at most forty times. A walk ends at an object, or at a vacant
location in a directory that is there.
-/

/-- What is wanted at the end of a path: the very thing that it names, what a link there leads to, or a
place for a file. -/
inductive Purpose where
  | name
  | look
  | write
  deriving DecidableEq, Repr

/-- What a walk arrives at. -/
inductive Destination where
  | object (place : Location) (object : StoreObject)
  | vacant (place : Location)
  deriving DecidableEq, Repr

namespace Store

def longestName : Nat := 255

def longestPath : Nat := 4095

def linkLimit : Nat := 40

def segments (path : String) : List String := Text.split Path.isSlash path

def isAnchored (path : String) : Bool := path.toList.head? == some '/'

/-- Where the names of a path begin. -/
def origin (here : Location) (path : String) : Location := if isAnchored path then [] else here

/-- Holds when a slash follows the last name of a path. -/
def isSlashed (rest : List String) : Bool := rest ≠ [] && rest.all (· = "")

/-- A walk that calls `enter` at each link on its way, with the target in front of what is left. A name
with a slash behind it is never a place for a file. -/
def walkWith (s : Store) (purpose : Purpose)
    (enter : Location → List String → Except StoreFault Destination) :
    Location → List String → Except StoreFault Destination
  | here, [] => .ok (.object here .directory)
  | here, name :: rest =>
    if name = "" || name = "." then walkWith s purpose enter here rest
    else if name = ".." then walkWith s purpose enter here.dropLast rest
    else if purpose = .write && isSlashed rest then .error .isDirectory
    else if longestName < name.utf8ByteSize then .error .nameTooLong
    else match s.get? (here ++ [name]) with
      | none => if rest = [] then .ok (.vacant (here ++ [name])) else .error .notFound
      | some .directory => walkWith s purpose enter (here ++ [name]) rest
      | some (.link target) =>
        if rest = [] && purpose = .name then .ok (.object (here ++ [name]) (.link target))
        else enter (origin here target) (segments target ++ rest)
      | some object => if rest = [] then .ok (.object (here ++ [name]) object) else .error .notDirectory

/-- A walk that enters at most `links` links. -/
def walk (s : Store) (purpose : Purpose) :
    (links : Nat) → Location → List String → Except StoreFault Destination
  | 0 => walkWith s purpose fun _ _ ↦ .error .tooManyLinks
  | links + 1 => walkWith s purpose (walk s purpose links)

def holdsNull (path : String) : Bool := path.toList.contains (Char.ofNat 0)

/-- Walks a path that is given as text, from the working directory or from the root. -/
def locate (s : Store) (here : Location) (purpose : Purpose) (path : String) :
    Except StoreError Destination :=
  if holdsNull path then .error .embeddedNull
  else if path = "" then .error (.fault .notFound path)
  else if longestPath < path.utf8ByteSize then .error (.fault .nameTooLong path)
  else (s.walk purpose linkLimit (origin here path) (segments path)).mapError (.fault · path)

/-- What is at the end of a path. A path that leads nowhere has nothing there, but a name that is too long
is an error of its own. -/
def look (s : Store) (here : Location) (path : String) :
    Except StoreError (Option (Location × StoreObject)) :=
  match s.locate here .look path with
  | .ok (.object place object) => .ok (some (place, object))
  | .error (.fault .nameTooLong p) => .error (.fault .nameTooLong p)
  | _ => .ok none

/-- Whether a path leads to a directory. -/
def isDirectory (s : Store) (here : Location) (path : String) : Except StoreError Bool :=
  (s.look here path).map fun found ↦ found.any fun (_, object) ↦ object = .directory

/-- The location of the regular file at the end of a path. -/
def file? (s : Store) (here : Location) (path : String) : Except StoreError (Option Location) :=
  (s.look here path).map fun found ↦ (found.filter fun (_, object) ↦ object.isFile).map Prod.fst

/-- Whether a path leads to a regular file that may be executed. -/
def isProgram (s : Store) (here : Location) (path : String) : Bool :=
  match s.look here path with
  | .ok (some (_, .file _ executable)) => executable
  | _ => false

end Store

/-- The text of a location as an anchored path. -/
def Location.text (place : Location) : String := "/" ++ Text.join "/" place

end WixAuthoring
