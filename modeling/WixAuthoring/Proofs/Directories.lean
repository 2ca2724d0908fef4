import WixAuthoring.Product
import WixAuthoring.Proofs.Document

namespace WixAuthoring.Source

/-!
# The directories of a document mirror the package

A document can be read back: each file with the names of the directories around it. What is read
back is what the package declares, nothing lost and nothing repeated, and the variables stand in
the first directory only.
-/

open Xml Element

/-- A file as a document installs it: the names of the directories around it, its own name, and
where it is taken from. -/
structure InstalledFile where
  directories : List String
  name : String
  source : String
  deriving DecidableEq, Repr

mutual

/-- The files in an element that stands in some directories, in the order of the document. -/
def installed (around : List String) : Element → List InstalledFile
  | .node tag attributes _ children =>
    if tag = "File" then
      [⟨around, (attributes.get? "Name").getD "", (attributes.get? "Source").getD ""⟩]
    else if tag = "Directory" then
      allInstalled (around ++ [(attributes.get? "Name").getD ""]) children
    else allInstalled around children

def allInstalled (around : List String) : List Element → List InstalledFile
  | [] => []
  | e :: rest => installed around e ++ allInstalled around rest

end

@[simp] theorem allInstalled_nil (around : List String) : allInstalled around [] = [] := by
  simp [allInstalled]

@[simp] theorem allInstalled_cons (around : List String) (e : Element) (rest : List Element) :
    allInstalled around (e :: rest) = installed around e ++ allInstalled around rest := by
  simp [allInstalled]

@[simp] theorem allInstalled_append (around : List String) (es fs : List Element) :
    allInstalled around (es ++ fs) = allInstalled around es ++ allInstalled around fs := by
  induction es with
  | nil => simp
  | cons e es ih => simp [ih]

@[simp] theorem installed_leaf (around : List String) (tag : String) (attributes : Attributes) :
    installed around (.leaf tag attributes) =
      if tag = "File" then
        [⟨around, (attributes.get? "Name").getD "", (attributes.get? "Source").getD ""⟩]
      else [] := by
  simp [leaf, installed]

@[simp] theorem installed_textLeaf_condition (around : List String) (attributes : Attributes)
    (text : String) : installed around (.textLeaf "Condition" attributes text) = [] := by
  simp [textLeaf, installed]

@[simp] theorem installed_directoryElement (around : List String) (id name : String)
    (children : List Element) :
    installed around (directoryElement id name children) =
      allInstalled (around ++ [name]) children := by
  simp [directoryElement, branch, installed]

@[simp] theorem installed_component (around : List String) (attributes : Attributes)
    (children : List Element) :
    installed around (.branch "Component" attributes children) = allInstalled around children := by
  simp [branch, installed]

theorem installed_append (around : List String) {e : Element} {more : List Element}
    (hmore : ∀ around, allInstalled around more = []) :
    installed around (e.append more) = installed around e := by
  cases e
  simp [Element.append, installed, hmore]

theorem allInstalled_variableComponents (p : Package) (around : List String) :
    allInstalled around (variableComponents p) = [] := by
  rw [variableComponents]
  induction numberedVariables p with
  | nil => simp
  | cons v vs ih =>
      rw [List.map_cons, allInstalled_cons, ih, List.append_nil]
      cases h : given v.1.condition <;>
        simp [variableComponent, conditionElements, variableElement, h]

theorem allInstalled_withVariableComponents (p : Package) (around : List String)
    (declared : List Element) :
    allInstalled around (withVariableComponents p declared) = allInstalled around declared := by
  cases declared with
  | nil => rfl
  | cons first rest =>
      rw [withVariableComponents, List.modifyHead_cons, allInstalled_cons, allInstalled_cons,
        installed_append around (allInstalled_variableComponents p)]

/-- Holds of a file that was declared and the same file as it is installed. -/
def IsInstalled (files : FileSource) (f : PlacedFile) (i : InstalledFile) : Prop :=
  ∃ path, files.place (files.root.source f.file.source) = .ok path ∧
    i = ⟨f.folders.map Folder.name, f.file.installName, path.text⟩

/-- The elements of what a directory with an identifier holds: in order one component with one file
for each file, and one directory for each directory. A directory has the identifier that it is given,
if it is not empty, and else one that is made from the one around it and its name. -/
inductive Mirrored (files : FileSource) : String → List Entry → List Element → Prop
  | nil {parentId : String} : Mirrored files parentId [] []
  | file {parentId fileId : String} {f : PackagedFile} {path : Path} {attributes : Attributes}
      {rest : List Entry} {more : List Element}
      (hpath : files.place (files.root.source f.source) = .ok path)
      (hrest : Mirrored files parentId rest more) :
      Mirrored files parentId (.file f :: rest)
        (.branch "Component" attributes [.leaf "File" [("Id", fileId), ("Name", f.installName),
          ("Source", path.text), ("KeyPath", "yes")]] :: more)
  | directory {parentId name made : String} {inner rest : List Entry} {own : Option FeatureRef}
      {id : Option String} {children more : List Element}
      (hmade : id = some made ∧ made ≠ "" ∨
        (id = none ∨ id = some "") ∧ made = identifier (parentId ++ "." ++ name))
      (hinner : Mirrored files made inner children) (hrest : Mirrored files parentId rest more) :
      Mirrored files parentId (.directory name inner own id :: rest)
        (.branch "Directory" [("Id", made), ("Name", name)] children :: more)

/-- Some elements, and the same with more behind what the first one holds. -/
inductive Supplied (more : List Element) : List Element → List Element → Prop
  | nil : Supplied more [] []
  | cons {name text : String} {attributes : Attributes} {children rest : List Element} :
      Supplied more (.node name attributes text children :: rest)
        (.node name attributes text (children ++ more) :: rest)

/-- Holds of the element that sets a variable for the whole machine, or else for a user. -/
def Sets (machine : Bool) (v : EnvironmentVariable) (e : Element) : Prop :=
  ∃ id part action,
    (v.part, part) ∈ [(.first, "first"), (.last, "last"), (.all, "all")] ∧
    (v.action, action) ∈ [(.set, "set"), (.create, "create"), (.remove, "remove")] ∧
    e = .leaf "Environment"
      [("Id", id), ("Name", v.name), ("Value", v.value),
       ("Permanent", if v.permanent then "yes" else "no"), ("Part", part), ("Action", action),
       ("System", if machine then "yes" else "no")]

/-- Holds of the component of a variable. It sets the variable, under its condition if it is given one
that is not empty. -/
def IsVariableComponent (v : EnvironmentVariable) (e : Element) : Prop :=
  ∃ attributes setting, Sets v.system v setting ∧
    e = .branch "Component" attributes
      ((v.condition.filter (· ≠ "")).toList.map (.textLeaf "Condition" []) ++ [setting])

variable {p : Package} {files : FileSource} {root : Element}

theorem directoryId_cases (parentId name : String) (id : Option String) :
    id = some (directoryId parentId name id) ∧ directoryId parentId name id ≠ "" ∨
      (id = none ∨ id = some "") ∧
        directoryId parentId name id = identifier (parentId ++ "." ++ name) := by
  cases id with
  | none => exact .inr ⟨.inl rfl, rfl⟩
  | some id =>
      by_cases hid : id = ""
      · subst hid
        exact .inr ⟨.inr rfl, rfl⟩
      · have hgiven : directoryId parentId name (some id) = id := by
          rw [directoryId, given_some hid, Option.getD_some]
        rw [hgiven]
        exact .inl ⟨rfl, hid⟩

theorem Mirrors.mirrored {package : Guid} {above : List Folder} {es : List Entry}
    {elements : List Element} (h : Mirrors package files above es elements) :
    Mirrored files (folderId above) es elements := by
  induction h with
  | nil => exact .nil
  | file above f path rest more hpath hrest ih => exact .file hpath ih
  | directory above name inner own id children rest more hinner hrest ihinner ih =>
      rw [folderId_concat] at ihinner
      exact .directory (directoryId_cases ..) ihinner ih

theorem supplied_withVariableComponents (p : Package) (declared : List Element) :
    Supplied (variableComponents p) declared (withVariableComponents p declared) := by
  cases declared with
  | nil => exact .nil
  | cons first rest =>
      cases first
      exact .cons

theorem sets_variableElement (id : String) (v : EnvironmentVariable) :
    Sets v.system v (variableElement id v) := by
  refine ⟨id, v.part.text, v.action.text, ?_, ?_, rfl⟩
  · cases v.part <;> decide
  · cases v.action <;> decide

theorem isVariableComponent_variableComponent (package : Guid) (v : EnvironmentVariable)
    (index : Nat) : IsVariableComponent v (variableComponent package v index) :=
  ⟨_, _, sets_variableElement (variableId v index) v, rfl⟩

/-- What holds of each variable, whatever its number, holds of all of them in order. -/
theorem forall₂_numberedVariables {R : EnvironmentVariable → Element → Prop}
    {make : EnvironmentVariable → Nat → Element} (h : ∀ v index, R v (make v index)) (p : Package) :
    List.Forall₂ R p.environment ((numberedVariables p).map fun (v, index) ↦ make v index) := by
  rw [numberedVariables]
  -- the number goes up in the induction
  generalize 1 = n
  induction p.environment generalizing n with
  | nil => exact .nil
  | cons v vs ih => exact .cons (h v n) (ih (n + 1))

theorem Mirrors.installed {package : Guid} {above : List Folder} {es : List Entry}
    {elements : List Element} (h : Mirrors package files above es elements) :
    List.Forall₂ (IsInstalled files) (Entry.allPlaced above es)
      (allInstalled (above.map Folder.name) elements) := by
  induction h with
  | nil => simp
  | file above f path rest more hpath hrest ih =>
      rw [Entry.allPlaced_file, allInstalled_cons, fileComponent, installed_component]
      refine .cons ⟨path, hpath, ?_⟩ ih
      simp
  | directory above name inner own id children rest more hinner hrest ihinner ih =>
      rw [Entry.allPlaced_directory, allInstalled_cons, installed_directoryElement]
      rw [List.map_append] at ihinner
      exact List.rel_append ihinner ih

theorem directories_productElement {tree license : List Element}
    (hlicense : licenseElements p files = .ok license) :
    (productElement p tree license).children.filter (·.name = "Directory") =
      [targetElement p tree] := by
  have hlead : (leadingElements p).filter (·.name = "Directory") = [] :=
    filter_name_eq_nil (fun e he ↦ name_of_mem_leadingElements (mem_flattenAll_of_mem he))
      (by decide)
  have htrail : (trailingElements p license).filter (·.name = "Directory") = [] :=
    filter_name_eq_nil
      (fun e he ↦ name_of_mem_trailingElements hlicense (mem_flattenAll_of_mem he)) (by decide)
  have hfeatures : (featureElements p (memberships p)).filter (·.name = "Directory") = [] :=
    filter_name_eq_nil (fun e he ↦ name_of_mem_featureElements he) (by decide)
  have htarget : (targetElement p tree).name = "Directory" := rfl
  simp only [productElement, children_branch, List.filter_append, hlead, htrail, hfeatures]
  simp [htarget]

/-- Under the target stands one folder for programs, and in it one directory for each that the
package declares, in order, each with what it declares in order. The components of the variables
are behind what the first one holds itself, one for each variable. Reading the tree back gives the
files that are declared, and neither directories nor components stand anywhere else. -/
theorem directories_mirrored (h : element p files = .ok root) :
    ∃ product target programFiles declared components tree,
      root.children = [product] ∧
      product.children.filter (·.name = "Directory") = [target] ∧
      target = .branch "Directory" [("Id", "TARGETDIR"), ("Name", "SourceDir")] [programFiles] ∧
      programFiles = .branch "Directory"
        [("Id", if p.platform = "x64" then "ProgramFiles64Folder" else "ProgramFilesFolder")]
        tree ∧
      Supplied components declared tree ∧
      Mirrored files "INSTALLDIR" (directories p) declared ∧
      List.Forall₂ IsVariableComponent p.environment components ∧
      (declared = [] → p.environment = []) ∧
      List.Forall₂ (IsInstalled files) p.placedFiles (allInstalled [] tree) ∧
      List.Forall₂ (fun v e ↦ Sets v.system v e) p.environment (root.named "Environment") ∧
      ∀ name ∈ ["Directory", "Component", "File", "Environment"],
        root.named name = target.named name := by
  have hset : List.Forall₂ (fun v e ↦ Sets v.system v e) p.environment
      (root.named "Environment") := by
    rw [named_environment_eq h]
    exact forall₂_numberedVariables (fun v index ↦ sets_variableElement (variableId v index) v) p
  obtain ⟨declared, license, -, hmirrors, hdeclared, hlicense, rfl⟩ := element_eq_ok h
  refine ⟨_, _, _, declared, variableComponents p, _, rfl, directories_productElement hlicense, rfl,
    rfl, supplied_withVariableComponents p declared, hmirrors.mirrored, forall₂_numberedVariables (isVariableComponent_variableComponent p.guid) p,
    hdeclared, ?_, hset, ?_⟩
  · rw [allInstalled_withVariableComponents]
    exact hmirrors.installed
  · intro name hname
    have houter : name ≠ "Feature" ∧ name ≠ "ComponentRef" ∧ name ∉ outerNames := by
      simp only [List.mem_cons, List.not_mem_nil, or_false] at hname
      rcases hname with rfl | rfl | rfl | rfl <;> decide
    rw [named_documentElement hlicense houter.2.2,
      namedAmong_featureElements_of_ne houter.1 houter.2.1, List.append_nil]

theorem product_directories_mirrored :
    ∃ root product target programFiles,
      element (Product.package ⟨0, [1, 2, 3], none, none, none, []⟩ none) (.unchecked .current) =
        .ok root ∧
      root.children = [product] ∧ product.children.filter (·.name = "Directory") = [target] ∧
      target.children = [programFiles] ∧
      List.Forall₂ (IsInstalled (.unchecked .current))
        (Product.package ⟨0, [1, 2, 3], none, none, none, []⟩ none).placedFiles
        (allInstalled [] programFiles.children) ∧
      List.Forall₂ (fun v e ↦ Sets v.system v e)
        (EnvironmentVariable.expandAll Product.environment) (root.named "Environment") := by
  have h : element (Product.package ⟨0, [1, 2, 3], none, none, none, []⟩ none)
      (.unchecked .current) = .ok _ := rfl
  obtain ⟨product, target, programFiles, declared, components, tree, hproduct, htarget, rfl, rfl, -,
    -, -, -, hinstalled, hset, -⟩ := directories_mirrored h
  exact ⟨_, product, _, _, h, hproduct, htarget, rfl, hinstalled, hset⟩

end WixAuthoring.Source
