import WixAuthoring.Program

namespace WixAuthoring

/-!
# The footprint of a run

The paths that a run of the program asks about, as far as they are known beforehand: the manifest, the
files of the package, the places where the tools may be, and where something is going to be written.
-/

namespace Entry

mutual

/-- The sources of the files in an entry. -/
def sources : Entry → List String
  | .file f => [f.source]
  | .directory _ entries _ _ => allSources entries
  | _ => []

def allSources : List Entry → List String
  | [] => []
  | e :: rest => e.sources ++ allSources rest

end

end Entry

namespace Toolchain

/-- The paths of both tools in a directory. -/
def bothTools (onWindows : Bool) (directory : Path) : List Path :=
  [tool onWindows directory compiler, tool onWindows directory linker]

/-- The directories in which the tools are looked for. -/
def candidates (v : Variables) : Option Path → List Path
  | some directory => [directory]
  | none =>
    (given v.wix).toList.map (fun home ↦ (Path.parse home).child "bin") ++
      (searchDirectories v).map Path.parse

end Toolchain

namespace Footprint

open CommandLine

/-- The files whose content is read or continued. -/
def contents (v : Variables) (o : Options) : List Path :=
  [o.manifest, Journal.recordPath v, Journal.errorPath v]

/-- The paths that are only asked about. -/
def presence (onWindows : Bool) (v : Variables) (o : Options) : List Path :=
  [o.outDir, o.outDir.child "wix"] ++
    (Product.licenseFile :: Entry.allSources Product.entries).map o.sourceRoot.source ++
    (Toolchain.candidates v o.wixBin).flatMap (Toolchain.bothTools onWindows)

/-- Where a path leads when no link is on its way. -/
def location (here : Location) (p : Path) : Location :=
  p.parts.foldl (fun place name ↦ if name = ".." then place.dropLast else place ++ [name])
    (if p.anchor = .relative then here else [])

/-- A location and those above it, the outermost first. -/
def ancestry (place : Location) : List Location :=
  (List.range place.length).map fun n ↦ place.take (n + 1)

/-- The locations that are looked at for some paths. -/
def locations (here : Location) (paths : List Path) : List Location :=
  firsts (paths.flatMap fun p ↦ ancestry (location here p))

end Footprint

end WixAuthoring
