import WixAuthoring.Proofs.Document

namespace WixAuthoring

/-!
# Where a document has its files

A file stands in a chain of directories, each with its identifier and its name, and in a component.
Reading a document gives every file with its chain and with what it is recognised by, and both come
from the GUID of the package, the chain and the name alone.
-/

namespace PlacedFile

open Source

/-- The directories of some folders below another one, each with its identifier and its name. -/
def chainFrom (parentId : String) : List Folder → List (String × String)
  | [] => []
  | d :: folders =>
    (directoryId parentId d.name d.id, d.name) ::
      chainFrom (directoryId parentId d.name d.id) folders

/-- The directories around a file, the outermost one first. -/
def chain (f : PlacedFile) : List (String × String) := chainFrom "INSTALLDIR" f.folders

/-- What the identity of a file depends on. -/
def key (f : PlacedFile) : List (String × String) × String := (f.chain, f.file.installName)

theorem chainFrom_concat (parentId : String) (folders : List Folder) (d : Folder) :
    chainFrom parentId (folders ++ [d]) = chainFrom parentId folders ++
      [(directoryId (folders.foldl (fun id d ↦ directoryId id d.name d.id) parentId) d.name d.id,
        d.name)] := by
  induction folders generalizing parentId with
  | nil => rfl
  | cons e folders ih =>
      rw [List.cons_append, chainFrom, ih]
      rfl

theorem foldl_directoryId (parentId : String) (folders : List Folder) :
    folders.foldl (fun id d ↦ directoryId id d.name d.id) parentId =
      ((chainFrom parentId folders).getLast?.map Prod.fst).getD parentId := by
  induction folders generalizing parentId with
  | nil => rfl
  | cons d folders ih =>
      rw [List.foldl_cons, ih, chainFrom, List.getLast?_cons]
      cases (chainFrom (directoryId parentId d.name d.id) folders).getLast? <;> rfl

theorem fileId_eq (f : PlacedFile) : f.fileId =
    Source.fileId ((f.chain.getLast?.map Prod.fst).getD "INSTALLDIR") f.file.installName := by
  rw [PlacedFile.fileId, folderId, foldl_directoryId]
  rfl

/-- Folders that are declared alike are the same directories. -/
theorem chainFrom_congr {parentId : String} {folders others : List Folder}
    (h : folders.map (fun d ↦ (given d.id, d.name)) = others.map fun d ↦ (given d.id, d.name)) :
    chainFrom parentId folders = chainFrom parentId others := by
  induction folders generalizing parentId others with
  | nil => rw [List.map_eq_nil_iff.1 h.symm]
  | cons d folders ih =>
      cases others with
      | nil => cases h
      | cons e others =>
          rw [List.map_cons, List.map_cons, List.cons.injEq, Prod.mk.injEq] at h
          obtain ⟨⟨hid, hname⟩, hrest⟩ := h
          have hdirectory : directoryId parentId d.name d.id = directoryId parentId e.name e.id := by
            rw [directoryId, directoryId, hid, hname]
          rw [chainFrom, chainFrom, hdirectory, hname, ih hrest]

end PlacedFile

namespace Source

open Xml Element

/-- What an element in a component is recognised by. -/
structure Identity where
  name : Option String
  id : Option String
  component : Option String
  guid : Option String
  deriving DecidableEq, Repr

/-- A file of a document, with the directories around it. -/
structure LocatedFile where
  chain : List (String × String)
  identity : Identity
  deriving DecidableEq, Repr

mutual

/-- The files in an element that stands in some directories and in a component with some
attributes. -/
def located (chain : List (String × String)) (component : Attributes) : Element → List LocatedFile
  | .node tag attributes _ children =>
    if tag = "File" then
      [⟨chain, attributes.get? "Name", attributes.get? "Id", component.get? "Id",
        component.get? "Guid"⟩]
    else if tag = "Directory" then
      allLocated (chain ++ [((attributes.get? "Id").getD "", (attributes.get? "Name").getD "")])
        component children
    else if tag = "Component" then allLocated chain attributes children
    else allLocated chain component children

def allLocated (chain : List (String × String)) (component : Attributes) :
    List Element → List LocatedFile
  | [] => []
  | e :: rest => located chain component e ++ allLocated chain component rest

end

/-- The files of a document, with the directories around them that the package declares. Two more
directories are around these: the target and the folder for programs. -/
def locatedFiles (root : Element) : List LocatedFile :=
  (located [] [] root).map fun f ↦ { f with chain := f.chain.drop 2 }

section Located

variable {chain : List (String × String)} {component : Attributes}

@[simp] theorem allLocated_nil : allLocated chain component [] = [] := by simp [allLocated]

@[simp] theorem allLocated_cons (e : Element) (rest : List Element) :
    allLocated chain component (e :: rest) =
      located chain component e ++ allLocated chain component rest := by
  simp [allLocated]

@[simp] theorem allLocated_append (es fs : List Element) :
    allLocated chain component (es ++ fs) =
      allLocated chain component es ++ allLocated chain component fs := by
  induction es with
  | nil => simp
  | cons e es ih => simp [ih]

theorem located_branch {tag : String} (hfile : tag ≠ "File") (hdirectory : tag ≠ "Directory")
    (hcomponent : tag ≠ "Component") (attributes : Attributes) (children : List Element) :
    located chain component (.branch tag attributes children) =
      allLocated chain component children := by
  rw [branch, located, if_neg hfile, if_neg hdirectory, if_neg hcomponent]

theorem located_directory (attributes : Attributes) (children : List Element) :
    located chain component (.branch "Directory" attributes children) =
      allLocated (chain ++ [((attributes.get? "Id").getD "", (attributes.get? "Name").getD "")])
        component children := by
  simp [branch, located]

@[simp] theorem located_directoryElement (id name : String) (children : List Element) :
    located chain component (directoryElement id name children) =
      allLocated (chain ++ [(id, name)]) component children :=
  located_directory _ _

@[simp] theorem located_fileComponent (package : Guid) (id installName : String) (path : Path) :
    located chain component (fileComponent package id installName path) =
      [⟨chain, some installName, some id, some (componentId id),
        some (componentGuid package id)⟩] := by
  simp [fileComponent, branch, leaf, located]

mutual

/-- Nothing is found where no file stands. -/
theorem located_eq_nil (chain : List (String × String)) (component : Attributes) (e : Element)
    (h : e.named "File" = []) : located chain component e = [] := by
  match e with
  | .node tag attributes text children =>
      rw [named_eq, List.append_eq_nil_iff] at h
      have htag : tag ≠ "File" := fun htag ↦ by simp [Element.name, htag] at h
      have hchildren (chain component) := allLocated_eq_nil chain component children h.2
      rw [located, if_neg htag, hchildren, hchildren, hchildren, ite_self, ite_self]

theorem allLocated_eq_nil (chain : List (String × String)) (component : Attributes)
    (es : List Element) (h : namedAmong "File" es = []) : allLocated chain component es = [] := by
  match es with
  | [] => rw [allLocated_nil]
  | e :: es =>
      rw [namedAmong_cons, List.append_eq_nil_iff] at h
      rw [allLocated_cons, located_eq_nil chain component e h.1,
        allLocated_eq_nil chain component es h.2, List.nil_append]

end

theorem located_append {e : Element} {more : List Element} (hmore : namedAmong "File" more = []) :
    located chain component (e.append more) = located chain component e := by
  cases e
  simp [Element.append, located, allLocated_eq_nil _ _ more hmore]

end Located

/-! ## Reading a document of a package -/

/-- The identity that goes with an identifier. -/
def identified (package : Guid) (id name : String) : Identity :=
  ⟨some name, some id, some (componentId id), some (componentGuid package id)⟩

/-- The file that goes with a place in the directories and a name. -/
def locate (package : Guid) (key : List (String × String) × String) : LocatedFile :=
  ⟨key.1, identified package (fileId ((key.1.getLast?.map Prod.fst).getD "INSTALLDIR") key.2) key.2⟩

variable {p : Package} {files : FileSource} {root : Element}

theorem locate_key (package : Guid) (f : PlacedFile) :
    locate package f.key = ⟨f.chain, identified package f.fileId f.file.installName⟩ := by
  rw [f.fileId_eq]
  rfl

theorem namedAmong_file_variableComponents (p : Package) :
    namedAmong "File" (variableComponents p) = [] :=
  namedAmong_eq_nil (names_variableComponents p) (by decide)

theorem Mirrors.located {package : Guid} {above : List Folder} {es : List Entry}
    {elements : List Element} (h : Mirrors package files above es elements)
    (outer : List (String × String)) (component : Attributes) :
    allLocated (outer ++ PlacedFile.chainFrom "INSTALLDIR" above) component elements =
      (Entry.allPlaced above es).map fun f ↦
        ⟨outer ++ f.chain, identified package f.fileId f.file.installName⟩ := by
  -- the chain on the left grows with the folders, so the induction goes through for all of them
  induction h with
  | nil => simp
  | file above f path rest more hpath hrest ih =>
      rw [allLocated_cons, located_fileComponent, ih, Entry.allPlaced_file]
      rfl
  | directory above name inner own id children rest more hinner hrest ihinner ih =>
      rw [PlacedFile.chainFrom_concat, ← List.append_assoc] at ihinner
      rw [allLocated_cons, located_directoryElement, ih, Entry.allPlaced_directory, List.map_append,
        ← ihinner]
      rfl

theorem allLocated_withVariableComponents (declared : List Element)
    (chain : List (String × String)) (component : Attributes) :
    allLocated chain component (withVariableComponents p declared) =
      allLocated chain component declared := by
  cases declared with
  | nil => rfl
  | cons first rest =>
      rw [withVariableComponents, List.modifyHead_cons, allLocated_cons, allLocated_cons,
        located_append (namedAmong_file_variableComponents p)]

theorem located_targetElement {declared : List Element}
    (hmirrors : Mirrors p.guid files [] (directories p) declared) :
    located [] [] (targetElement p (withVariableComponents p declared)) =
      p.placedFiles.map fun f ↦
        ⟨[("TARGETDIR", "SourceDir"), (programFilesFolder p.platform, "")] ++ f.chain,
          identified p.guid f.fileId f.file.installName⟩ := by
  rw [targetElement, located_directoryElement, allLocated_cons, located_directory, allLocated_nil,
    List.append_nil, allLocated_withVariableComponents]
  exact hmirrors.located [("TARGETDIR", "SourceDir"), (programFilesFolder p.platform, "")] []

/-- The files of a document are those of the package. -/
theorem locatedFiles_eq (h : element p files = .ok root) :
    locatedFiles root = (p.placedFiles.map PlacedFile.key).map (locate p.guid) := by
  obtain ⟨declared, license, -, hmirrors, -, hlicense, rfl⟩ := element_eq_ok h
  have hlead : namedAmong "File" (leadingElements p) = [] :=
    namedAmong_eq_nil (fun e he ↦ name_of_mem_leadingElements he) (by decide)
  have hfeatures : namedAmong "File" (featureElements p (memberships p)) = [] :=
    namedAmong_featureElements_of_ne (by decide) (by decide)
  have htrail : namedAmong "File" (trailingElements p license) = [] :=
    namedAmong_eq_nil (fun e he ↦ name_of_mem_trailingElements hlicense he) (by decide)
  have hroot : located [] [] (documentElement p (withVariableComponents p declared) license) =
      located [] [] (targetElement p (withVariableComponents p declared)) := by
    rw [documentElement, located_branch (by decide) (by decide) (by decide), allLocated_cons,
      productElement, located_branch (by decide) (by decide) (by decide)]
    simp only [allLocated_append, allLocated_cons, allLocated_nil, List.append_nil,
      allLocated_eq_nil _ _ _ hlead, allLocated_eq_nil _ _ _ hfeatures,
      allLocated_eq_nil _ _ _ htrail, List.nil_append]
  rw [locatedFiles, hroot, located_targetElement hmirrors, List.map_map, List.map_map]
  refine List.map_congr_left fun f _ ↦ ?_
  exact (locate_key p.guid f).symm

end Source

end WixAuthoring
