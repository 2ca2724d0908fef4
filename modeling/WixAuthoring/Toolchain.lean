import WixAuthoring.Machine
import WixAuthoring.Text.Given

namespace WixAuthoring

/-!
# The toolchain

The compiler and the linker are looked for in a directory that is named, then in the directory that
their own installer has set, then along the search path.
-/

namespace Toolchain

def compiler : String := "candle"

def linker : String := "light"

def extensions : List String := ["WixUIExtension", "WixUtilExtension"]

/-- The path of a tool in a directory. -/
def tool (onWindows : Bool) (directory : Path) (name : String) : Path :=
  directory.child (if onWindows then name ++ ".exe" else name)

def isFile (s : Store) (here : Location) (p : Path) : Except Failure Bool :=
  ((s.file? here p.text).map Option.isSome).mapError .store

def holdsTools (s : Store) (here : Location) (onWindows : Bool) (directory : Path) :
    Except Failure Bool := do
  if ← isFile s here (tool onWindows directory compiler) then
    isFile s here (tool onWindows directory linker)
  else return false

/-- The directory that the installer of the tools has set. -/
def installed? (s : Store) (here : Location) (onWindows : Bool) (v : Variables) :
    Except Failure (Option Path) :=
  match given v.wix with
  | none => .ok none
  | some home => do
    let directory := (Path.parse home).child "bin"
    return if ← holdsTools s here onWindows directory then some directory else none

def defaultSearchPath : String := "/bin:/usr/bin"

/-- The directories of the search path. An empty path has none, but one of two empty parts has the
working directory. -/
def searchDirectories (v : Variables) : List String :=
  let path := v.searchPath.getD defaultSearchPath
  if path = "" then [] else Text.split (· == ':') path

/-- The path of a program in a directory of the search path. -/
def programIn (directory name : String) : String :=
  if directory = "" then name
  else if directory.toList.getLast? = some '/' then directory ++ name
  else directory ++ "/" ++ name

def search? (s : Store) (here : Location) (v : Variables) (name : String) : Option String :=
  ((searchDirectories v).map (programIn · name)).find? (s.isProgram here)

/-- The directory of the compiler on the search path. The linker has to be on the search path too. -/
def searched? (s : Store) (here : Location) (v : Variables) : Option Path := do
  let path ← search? s here v compiler
  let _ ← search? s here v linker
  return (Path.parse path).parent

/-- The directory of the tools. -/
def find (s : Store) (here : Location) (onWindows : Bool) (v : Variables) :
    Option Path → Except Failure Path
  | some directory => do
    if ← holdsTools s here onWindows directory then return directory
    else .error (.configuration (.toolNotFound (tool onWindows directory compiler).text))
  | none => do
    match ← installed? s here onWindows v with
    | some directory => return directory
    | none =>
      match searched? s here v with
      | some directory => return directory
      | none => .error (.configuration (.toolNotFound compiler))

def extensionArguments : List String := extensions.flatMap fun e ↦ ["-ext", e]

def compileCommand (onWindows : Bool) (directory : Path) (platform : String) (object source : Path) :
    List String :=
  [(tool onWindows directory compiler).text, "-nologo", "-arch", platform] ++ extensionArguments ++
    ["-out", object.text, source.text]

def linkCommand (onWindows : Bool) (directory : Path) (options : List String) (output object : Path) :
    List String :=
  [(tool onWindows directory linker).text, "-nologo"] ++ extensionArguments ++ options ++
    ["-out", output.text, object.text]

end Toolchain

end WixAuthoring
