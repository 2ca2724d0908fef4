import WixAuthoring.Proofs.Sorting

namespace WixAuthoring

/-!
# Where files are placed

A file lies in a chain of folders, the outermost one first. The chain gives the directory of the
file its identifier, and the file its feature when it names none.
-/

/-- A directory as what lies in it sees it. -/
structure Folder where
  name : String
  id : Option String
  feature : Option FeatureRef
  deriving DecidableEq, Repr

structure PlacedFile where
  folders : List Folder
  file : PackagedFile
  deriving DecidableEq, Repr

namespace Entry

mutual

/-- The files in an entry that lies in some folders, depth first and with repetitions. -/
def placed (above : List Folder) : Entry → List PlacedFile
  | .file f => [⟨above, f⟩]
  | .directory name inner own id => allPlaced (above ++ [⟨name, id, own⟩]) inner
  | _ => []

def allPlaced (above : List Folder) : List Entry → List PlacedFile
  | [] => []
  | e :: rest => e.placed above ++ allPlaced above rest

end

@[simp] theorem allPlaced_nil (above : List Folder) : allPlaced above [] = [] := by
  simp [allPlaced]

@[simp] theorem allPlaced_file (above : List Folder) (f : PackagedFile) (rest : List Entry) :
    allPlaced above (.file f :: rest) = ⟨above, f⟩ :: allPlaced above rest := by
  simp [allPlaced, placed]

@[simp] theorem allPlaced_directory (above : List Folder) (name : String) (inner rest : List Entry)
    (own : Option FeatureRef) (id : Option String) :
    allPlaced above (.directory name inner own id :: rest) =
      allPlaced (above ++ [⟨name, id, own⟩]) inner ++ allPlaced above rest := by
  simp [allPlaced, placed]

end Entry

/-- The files of a package in the order in which its directories declare them. -/
def Package.placedFiles (p : Package) : List PlacedFile :=
  Entry.allPlaced [] (p.entries.filter Entry.isDirectory)

namespace Source

/-- The feature of the innermost folder that has one. -/
def nearestFeature (folders : List Folder) : Option FeatureRef :=
  folders.reverse.findSome? Folder.feature

/-- The identifier of the innermost folder. -/
def folderId (folders : List Folder) : String :=
  folders.foldl (fun parentId d ↦ directoryId parentId d.name d.id) "INSTALLDIR"

@[simp] theorem nearestFeature_nil : nearestFeature [] = none := rfl

@[simp] theorem nearestFeature_concat (folders : List Folder) (d : Folder) :
    nearestFeature (folders ++ [d]) = d.feature.or (nearestFeature folders) := by
  cases h : d.feature <;> simp [nearestFeature, h]

@[simp] theorem folderId_nil : folderId [] = "INSTALLDIR" := rfl

@[simp] theorem folderId_concat (folders : List Folder) (d : Folder) :
    folderId (folders ++ [d]) = directoryId (folderId folders) d.name d.id := by
  simp [folderId]

end Source

namespace PlacedFile

open Source

def fileId (f : PlacedFile) : String := Source.fileId (folderId f.folders) f.file.installName

def componentId (f : PlacedFile) : String := Source.componentId f.fileId

/-- The feature of the file itself, else of the nearest folder that has one. -/
def feature (f : PlacedFile) : Option FeatureRef := f.file.feature.or (nearestFeature f.folders)

def membership (f : PlacedFile) : Membership := ⟨f.feature, f.componentId⟩

end PlacedFile

end WixAuthoring
