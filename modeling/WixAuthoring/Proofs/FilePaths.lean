import WixAuthoring.Proofs.Dependence

namespace WixAuthoring

/-!
# The paths in a document

A document gives the path of each file that its package names, as it is written down or as it is
found. The paths change nothing else: whoever finds the files elsewhere writes the same document
with other paths.
-/

namespace Xml

namespace Element

/-- Holds of the attributes that give the path of a file. -/
def givesPath (tag name : String) : Bool :=
  tag = "File" && name = "Source" || tag = "WixVariable" && name = "Value"

mutual

/-- The element with other paths for its files. -/
def mapPaths (change : String → String) : Element → Element
  | .node tag attributes text children =>
    .node tag
      (attributes.map fun (name, value) ↦
        (name, if givesPath tag name then change value else value))
      text (mapPathsAll change children)

def mapPathsAll (change : String → String) : List Element → List Element
  | [] => []
  | e :: rest => mapPaths change e :: mapPathsAll change rest

end

/-- The paths of files that are given by the attributes of an element itself. -/
def ownPaths (e : Element) : List String :=
  (e.attributes.filter fun (name, _) ↦ givesPath e.name name).map Prod.snd

/-- The paths of files in some elements and everything below them. -/
def pathsAmong (es : List Element) : List String := (flattenAll es).flatMap ownPaths

def paths (e : Element) : List String := e.flatten.flatMap ownPaths

section Paths

theorem paths_eq (e : Element) : e.paths = e.ownPaths ++ pathsAmong e.children := by
  rw [paths, flatten_eq, List.flatMap_cons]
  rfl

@[simp] theorem pathsAmong_nil : pathsAmong [] = [] := by simp [pathsAmong]

@[simp] theorem pathsAmong_cons (e : Element) (es : List Element) :
    pathsAmong (e :: es) = e.ownPaths ++ pathsAmong e.children ++ pathsAmong es := by
  simp [pathsAmong, List.append_assoc]

@[simp] theorem pathsAmong_append (es fs : List Element) :
    pathsAmong (es ++ fs) = pathsAmong es ++ pathsAmong fs := by
  simp [pathsAmong]

/-- Holds when nothing among the elements and below them can give a path. -/
def Pathless (es : List Element) : Prop :=
  ∀ e ∈ flattenAll es, e.name ≠ "File" ∧ e.name ≠ "WixVariable"

@[simp] theorem pathless_nil : Pathless [] := by simp [Pathless]

@[simp] theorem pathless_cons {e : Element} {es : List Element} : Pathless (e :: es) ↔
    (e.name ≠ "File" ∧ e.name ≠ "WixVariable") ∧ Pathless e.children ∧ Pathless es :=
  forall_mem_flattenAll_node

@[simp] theorem pathless_append {es fs : List Element} :
    Pathless (es ++ fs) ↔ Pathless es ∧ Pathless fs :=
  forall_mem_flattenAll_append

theorem pathless_map {α : Type} {f : α → Element} (h : ∀ a, Pathless [f a]) (l : List α) :
    Pathless (l.map f) :=
  forall_mem_flattenAll_map h l

theorem pathless_of_names {names : List String} {es : List Element}
    (h : ∀ e ∈ flattenAll es, e.name ∈ names) (hfile : "File" ∉ names)
    (hvariable : "WixVariable" ∉ names) : Pathless es := fun e he ↦
  ⟨fun heq ↦ hfile (heq ▸ h e he), fun heq ↦ hvariable (heq ▸ h e he)⟩

theorem ownPaths_eq_nil {e : Element} (hfile : e.name ≠ "File")
    (hvariable : e.name ≠ "WixVariable") : e.ownPaths = [] := by
  simp [ownPaths, givesPath, hfile, hvariable]

theorem ownPaths_branch {tag : String} (hfile : tag ≠ "File") (hvariable : tag ≠ "WixVariable")
    (attributes : Attributes) (children : List Element) :
    (branch tag attributes children).ownPaths = [] :=
  ownPaths_eq_nil hfile hvariable

theorem Pathless.pathsAmong_eq_nil {es : List Element} (h : Pathless es) : pathsAmong es = [] :=
  List.flatMap_eq_nil_iff.2 fun e he ↦ ownPaths_eq_nil (h e he).1 (h e he).2

end Paths

section MapPaths

variable {change : String → String} {tag : String}

@[simp] theorem mapPathsAll_nil : mapPathsAll change [] = [] := by simp [mapPathsAll]

@[simp] theorem mapPathsAll_cons (e : Element) (es : List Element) :
    mapPathsAll change (e :: es) = mapPaths change e :: mapPathsAll change es := by
  simp [mapPathsAll]

@[simp] theorem mapPathsAll_append (es fs : List Element) :
    mapPathsAll change (es ++ fs) = mapPathsAll change es ++ mapPathsAll change fs := by
  induction es with
  | nil => simp
  | cons e es ih => simp [ih]

theorem mapPaths_of_ne {e : Element} (hfile : e.name ≠ "File")
    (hvariable : e.name ≠ "WixVariable") :
    mapPaths change e = .node e.name e.attributes e.text (mapPathsAll change e.children) := by
  obtain ⟨tag, attributes, text, children⟩ := e
  have hgives (name : String) : givesPath tag name = false := by
    simp [givesPath, show tag ≠ "File" from hfile, show tag ≠ "WixVariable" from hvariable]
  simp [mapPaths, hgives, name, Element.attributes, Element.text, Element.children]

theorem mapPaths_branch (hfile : tag ≠ "File") (hvariable : tag ≠ "WixVariable")
    (attributes : Attributes) (children : List Element) :
    mapPaths change (.branch tag attributes children) =
      .branch tag attributes (mapPathsAll change children) :=
  mapPaths_of_ne hfile hvariable

theorem mapPaths_append (e : Element) (more : List Element) :
    mapPaths change (e.append more) =
      (mapPaths change e).append (mapPathsAll change more) := by
  obtain ⟨tag, attributes, text, children⟩ := e
  simp [append, mapPaths]

/-- Nothing changes where no path is given. -/
theorem Pathless.mapPathsAll_eq_self {es : List Element} (h : Pathless es) :
    mapPathsAll change es = es := by
  match es with
  | [] => exact mapPathsAll_nil
  | .node tag attributes text children :: es =>
      obtain ⟨⟨hfile, hvariable⟩, hchildren, hes⟩ := pathless_cons.1 h
      have hself : mapPaths change (.node tag attributes text children) =
          .node tag attributes text (mapPathsAll change children) := mapPaths_of_ne hfile hvariable
      have hchildren : Pathless children := hchildren
      have hbelow := hchildren.mapPathsAll_eq_self
      rw [mapPathsAll_cons, hself, hbelow, hes.mapPathsAll_eq_self]

mutual

theorem mapPaths_id : (e : Element) → mapPaths id e = e
  | .node tag attributes text children => by
    simp [mapPaths, mapPathsAll_id children]

theorem mapPathsAll_id : (es : List Element) → mapPathsAll id es = es
  | [] => mapPathsAll_nil
  | e :: es => by rw [mapPathsAll_cons, mapPaths_id e, mapPathsAll_id es]

end

/-- The names that an element uses, of itself and of its attributes. -/
def ownNames (e : Element) : List String := e.name :: e.attributes.map Prod.fst

theorem ownNames_mapPaths (e : Element) : (mapPaths change e).ownNames = e.ownNames := by
  obtain ⟨tag, attributes, text, children⟩ := e
  simp [mapPaths, ownNames, name, Element.attributes, Function.comp_def]

theorem children_mapPaths (e : Element) :
    (mapPaths change e).children = mapPathsAll change e.children := by
  obtain ⟨tag, attributes, text, children⟩ := e
  rw [mapPaths, Element.children, Element.children]

mutual

theorem names_mapPaths : (e : Element) →
    (mapPaths change e).flatten.flatMap ownNames = e.flatten.flatMap ownNames
  | .node tag attributes text children => by
    rw [flatten_eq, flatten_eq, List.flatMap_cons, List.flatMap_cons, ownNames_mapPaths,
      children_mapPaths, Element.children, names_mapPathsAll children]

theorem names_mapPathsAll : (es : List Element) →
    (flattenAll (mapPathsAll change es)).flatMap ownNames = (flattenAll es).flatMap ownNames
  | [] => by rw [mapPathsAll_nil]
  | e :: es => by
    rw [mapPathsAll_cons, flattenAll, flattenAll, List.flatMap_append, List.flatMap_append,
      names_mapPaths e, names_mapPathsAll es]

end

end MapPaths

end Element

open Element

theorem exists_document?_mapPaths {change : String → String} {e : Element} {text : String}
    (h : document? (e.mapPaths change) = some text) :
    ∃ plainText, document? e = some plainText := by
  -- whether a document can be written is decided by the names in it
  have hnames : Names.ofElement? (e.mapPaths change) = Names.ofElement? e :=
    congrArg (Names.addAll? {}) (names_mapPaths e)
  rw [document?, hnames] at h
  obtain ⟨names, hnames, -⟩ := Option.map_eq_some_iff.1 h
  exact ⟨_, by rw [document?, hnames]; rfl⟩

end Xml

/-- The sources of all files that a package needs, in the order in which it names them. -/
def Package.sources (p : Package) : List String :=
  p.placedFiles.map (fun f ↦ f.file.source) ++ (given p.licenseFile).toList

/-- Holds when what one finds the other one writes down, but for a change of the path. -/
structure FileSource.Resolves (change : String → String) (found written : FileSource) : Prop where
  root_eq : written.root = found.root
  place_eq : ∀ path place, found.place path = .ok place →
    ∃ plain, written.place path = .ok plain ∧ place.text = change plain.text

variable {change : String → String} {found written : FileSource}

theorem FileSource.Resolves.find (h : found.Resolves change written) {source : String}
    {place : Path} (hfind : found.find source = .ok place) :
    ∃ plain, written.find source = .ok plain ∧ place.text = change plain.text := by
  rw [FileSource.find, h.root_eq]
  exact h.place_eq _ _ hfind

namespace Source

open Xml Element

variable {p : Package}

/-! ## Where no path is given -/

theorem pathless_leadingElements (p : Package) : Pathless (leadingElements p) :=
  pathless_of_names (fun _ ↦ name_of_mem_leadingElements) (by decide) (by decide)

theorem pathless_variableComponents (p : Package) : Pathless (variableComponents p) :=
  pathless_of_names (names_variableComponents p) (by decide) (by decide)

theorem pathless_featureElements (p : Package) (members : List Membership) :
    Pathless (featureElements p members) := by
  refine pathless_map ?_ _
  rintro ⟨owner, components⟩
  have hrefs : Pathless (components.map fun id ↦ .leaf "ComponentRef" [("Id", id)]) :=
    pathless_map (by simp) components
  simp [featureElement, hrefs]

theorem pathless_setPropertyElements (p : Package) :
    Pathless ((p.entries.filterMap Entry.setProperty?).map setPropertyElement) :=
  pathless_map (by simp [setPropertyElement]) _

theorem pathless_actionElements (actions : List CustomAction) :
    Pathless (actionElements actions) := by
  rw [actionElements]
  split
  · exact pathless_nil
  · have hactions : Pathless (actions.map customActionElement) :=
      pathless_map (by simp [customActionElement]) actions
    have hschedules : Pathless (actions.map scheduleElement) :=
      pathless_map (by simp [scheduleElement]) actions
    simp [hactions, hschedules]

theorem pathless_uiElements (p : Package) : Pathless (uiElements p) :=
  pathless_map (by simp) _

/-! ## Changing the paths of a document -/

theorem mapPaths_fileComponent (package : Guid) (id installName : String) {place plain : Path}
    (h : place.text = change plain.text) :
    mapPaths change (fileComponent package id installName plain) =
      fileComponent package id installName place := by
  rw [fileComponent, fileComponent, h]
  simp [mapPaths, givesPath, branch, leaf]

theorem mapPaths_directoryElement (id name : String) (children : List Element) :
    mapPaths change (directoryElement id name children) =
      directoryElement id name (mapPathsAll change children) :=
  mapPaths_branch (by decide) (by decide) _ _

theorem entries_cons_of_ok {parentId : String} {inherited : Option FeatureRef} {e : Entry}
    {rest : List Entry} {element : Element} {elements : List Element}
    {members others : List Membership}
    (he : entry p files parentId inherited e = .ok (element, members))
    (hrest : entries p files parentId inherited rest = .ok (elements, others)) :
    entries p files parentId inherited (e :: rest) =
      .ok (element :: elements, members ++ others) := by
  rw [entries, he]
  change (entries p files parentId inherited rest >>= _) = _
  rw [hrest]
  rfl

theorem entries_of_resolves (h : found.Resolves change written) {parentId : String}
    {inherited : Option FeatureRef} {es : List Entry} {elements : List Element}
    {members : List Membership}
    (hes : entries p found parentId inherited es = .ok (elements, members)) :
    ∃ plain, entries p written parentId inherited es = .ok (plain, members) ∧
      elements = mapPathsAll change plain := by
  match es with
  | [] =>
      rw [entries] at hes ⊢
      obtain ⟨rfl, rfl⟩ := Prod.mk.inj (Except.ok.inj hes)
      exact ⟨[], rfl, mapPathsAll_nil.symm⟩
  | .file f :: rest =>
      obtain ⟨element, own, more, others, he, hrest, heq⟩ := entries_cons_eq_ok hes
      obtain ⟨place, hplace, hfile⟩ := entry_file_eq_ok he
      obtain ⟨rfl, rfl⟩ := Prod.mk.inj heq
      obtain ⟨rfl, rfl⟩ := Prod.mk.inj hfile
      obtain ⟨path, hpath, hchange⟩ := h.find hplace
      obtain ⟨plain, hplain, rfl⟩ := entries_of_resolves h hrest
      have hentry : entry p written parentId inherited (.file f) =
          .ok (fileComponent p.guid (fileId parentId f.installName) f.installName path,
            [⟨f.feature.or inherited, componentId (fileId parentId f.installName)⟩]) := by
        rw [entry, hpath]
        rfl
      refine ⟨_, entries_cons_of_ok hentry hplain, ?_⟩
      rw [mapPathsAll_cons, mapPaths_fileComponent _ _ _ hchange]
  | .directory name inner own id :: rest =>
      obtain ⟨element, within, more, others, he, hrest, heq⟩ := entries_cons_eq_ok hes
      obtain ⟨children, inside, hinner, hdirectory⟩ := entry_directory_eq_ok he
      obtain ⟨rfl, rfl⟩ := Prod.mk.inj heq
      obtain ⟨rfl, rfl⟩ := Prod.mk.inj hdirectory
      -- identifiers and features come from the folders alone, so both walks pass on the same ones
      obtain ⟨plainInner, hplainInner, rfl⟩ := entries_of_resolves h hinner
      obtain ⟨plain, hplain, rfl⟩ := entries_of_resolves h hrest
      have hentry : entry p written parentId inherited (.directory name inner own id) =
          .ok (directoryElement (directoryId parentId name id) name plainInner, within) := by
        rw [entry, hplainInner]
        rfl
      refine ⟨_, entries_cons_of_ok hentry hplain, ?_⟩
      rw [mapPathsAll_cons, mapPaths_directoryElement]
  | .property _ :: _ | .environment _ :: _ | .setProperty _ :: _ | .customAction _ :: _
  | .feature _ :: _ | .scalar _ :: _ =>
      obtain ⟨element, own, more, others, he, -⟩ := entries_cons_eq_ok hes
      simp [entry] at he

theorem withVariables_mapPathsAll {plain tree : List Element}
    (h : withVariables p (mapPathsAll change plain) = .ok tree) :
    ∃ plainTree, withVariables p plain = .ok plainTree ∧ tree = mapPathsAll change plainTree := by
  cases plain with
  | nil =>
      rw [mapPathsAll_nil, withVariables] at h
      rw [withVariables]
      split at h
      · next henvironment =>
          obtain rfl := Except.ok.inj h
          exact ⟨[], if_pos henvironment, mapPathsAll_nil.symm⟩
      · cases h
  | cons first rest =>
      rw [mapPathsAll_cons, withVariables] at h
      obtain rfl := Except.ok.inj h
      refine ⟨_, rfl, ?_⟩
      rw [mapPathsAll_cons, mapPaths_append, (pathless_variableComponents p).mapPathsAll_eq_self]

theorem licenseElements_of_resolves (h : found.Resolves change written) {license : List Element}
    (hlicense : licenseElements p found = .ok license) :
    ∃ plain, licenseElements p written = .ok plain ∧ license = mapPathsAll change plain := by
  rw [licenseElements] at hlicense ⊢
  split at hlicense
  · obtain rfl := Except.ok.inj hlicense
    exact ⟨[], rfl, mapPathsAll_nil.symm⟩
  · obtain ⟨place, hplace, hlicense⟩ := bind_eq_ok_iff.1 hlicense
    obtain rfl := Except.ok.inj hlicense
    obtain ⟨path, hpath, hchange⟩ := h.find hplace
    refine ⟨_, bind_eq_ok_iff.2 ⟨path, hpath, rfl⟩, ?_⟩
    simp [mapPaths, givesPath, leaf, hchange]

theorem mapPathsAll_trailingElements (p : Package) (license : List Element) :
    mapPathsAll change (trailingElements p license) =
      trailingElements p (mapPathsAll change license) := by
  simp only [trailingElements, mapPathsAll_append,
    (pathless_setPropertyElements p).mapPathsAll_eq_self,
    (pathless_actionElements _).mapPathsAll_eq_self, (pathless_uiElements p).mapPathsAll_eq_self]

theorem mapPaths_targetElement (p : Package) (tree : List Element) :
    mapPaths change (targetElement p tree) = targetElement p (mapPathsAll change tree) := by
  rw [targetElement, targetElement, mapPaths_directoryElement, mapPathsAll_cons,
    mapPaths_branch (by decide) (by decide), mapPathsAll_nil]

theorem mapPathsAll_productChildren (p : Package) (tree license : List Element)
    (members : List Membership) :
    mapPathsAll change (productChildren p tree license members) =
      productChildren p (mapPathsAll change tree) (mapPathsAll change license) members := by
  simp only [productChildren, mapPathsAll_append, mapPathsAll_cons, mapPathsAll_nil,
    mapPaths_targetElement, mapPathsAll_trailingElements,
    (pathless_leadingElements p).mapPathsAll_eq_self,
    (pathless_featureElements p _).mapPathsAll_eq_self]

/-- What finds files writes the document of what writes their paths down, with other paths. -/
theorem element_of_resolves (h : found.Resolves change written) {root : Element}
    (hroot : element p found = .ok root) :
    ∃ plain, element p written = .ok plain ∧ root = plain.mapPaths change := by
  simp only [element_eq, bind_eq_ok_iff] at hroot ⊢
  obtain ⟨_, hcheck, ⟨declared, members⟩, hentries, tree, htree, license, hlicense, hroot⟩ := hroot
  obtain ⟨plain, hplain, rfl⟩ := entries_of_resolves h hentries
  obtain ⟨plainTree, hplainTree, rfl⟩ := withVariables_mapPathsAll htree
  obtain ⟨plainLicense, hplainLicense, rfl⟩ := licenseElements_of_resolves h hlicense
  refine ⟨_, ⟨_, hcheck, _, hplain, _, hplainTree, _, hplainLicense, rfl⟩, ?_⟩
  rw [← Except.ok.inj hroot, mapPaths_branch (by decide) (by decide), mapPathsAll_cons,
    mapPaths_branch (by decide) (by decide), mapPathsAll_productChildren, mapPathsAll_nil]

/-! ## The paths that a document gives -/

/-- Holds of a source and the text of the path that is found for it. -/
def WritesPath (files : FileSource) (source text : String) : Prop :=
  ∃ path, files.find source = .ok path ∧ path.text = text

variable {files : FileSource}

theorem Mirrors.paths {package : Guid} {above : List Folder} {es : List Entry}
    {elements : List Element} (h : Mirrors package files above es elements) :
    List.Forall₂ (WritesPath files) ((Entry.allPlaced above es).map fun f ↦ f.file.source)
      (pathsAmong elements) := by
  induction h with
  | nil => simp
  | file above f path rest more hpath hrest ih =>
      rw [Entry.allPlaced_file, pathsAmong_cons]
      exact .cons ⟨path, hpath, rfl⟩ ih
  | directory above name inner own id children rest more hinner hrest ihinner ih =>
      rw [Entry.allPlaced_directory, pathsAmong_cons, List.map_append]
      exact List.rel_append ihinner ih

theorem pathsAmong_withVariableComponents (p : Package) (declared : List Element) :
    pathsAmong (withVariableComponents p declared) = pathsAmong declared := by
  cases declared with
  | nil => rfl
  | cons first rest =>
      obtain ⟨tag, attributes, text, children⟩ := first
      rw [withVariableComponents, List.modifyHead_cons, pathsAmong_cons, pathsAmong_cons,
        children_append, pathsAmong_append, (pathless_variableComponents p).pathsAmong_eq_nil,
        List.append_nil]
      rfl

theorem pathsAmong_trailingElements (p : Package) (license : List Element) :
    pathsAmong (trailingElements p license) = pathsAmong license := by
  simp only [trailingElements, pathsAmong_append,
    (pathless_setPropertyElements p).pathsAmong_eq_nil,
    (pathless_actionElements _).pathsAmong_eq_nil, (pathless_uiElements p).pathsAmong_eq_nil,
    List.nil_append, List.append_nil]

theorem paths_documentElement (tree license : List Element) :
    (documentElement p tree license).paths = pathsAmong tree ++ pathsAmong license := by
  simp [paths_eq, documentElement, productElement, targetElement, directoryElement, ownPaths_branch,
    (pathless_leadingElements p).pathsAmong_eq_nil,
    (pathless_featureElements p _).pathsAmong_eq_nil, pathsAmong_trailingElements]

theorem paths_licenseElements {license : List Element}
    (h : licenseElements p files = .ok license) :
    List.Forall₂ (WritesPath files) (given p.licenseFile).toList (pathsAmong license) := by
  rw [licenseElements] at h
  split at h
  · next hnone =>
      obtain rfl := Except.ok.inj h
      rw [hnone, pathsAmong_nil]
      exact .nil
  · next file hfile =>
      obtain ⟨path, hpath, h⟩ := bind_eq_ok_iff.1 h
      obtain rfl := Except.ok.inj h
      rw [hfile, pathsAmong_cons]
      exact .cons ⟨path, hpath, rfl⟩ .nil

/-- A document gives the path of each file that the package names, in order, and no other path. -/
theorem paths_of_element {root : Element} (h : element p files = .ok root) :
    List.Forall₂ (WritesPath files) p.sources root.paths := by
  obtain ⟨declared, license, -, hmirrors, -, hlicense, rfl⟩ := element_eq_ok h
  rw [paths_documentElement, pathsAmong_withVariableComponents]
  exact List.rel_append hmirrors.paths (paths_licenseElements hlicense)

theorem exists_find_of_mem_sources {root : Element} (h : element p files = .ok root) :
    ∀ source ∈ p.sources, ∃ path, files.find source = .ok path := by
  have hfound : List.Forall₂ (fun source text ↦ (∃ path, files.find source = .ok path) ∧
      WritesPath files source text) p.sources root.paths :=
    (paths_of_element h).imp fun _ _ ⟨path, hpath, htext⟩ ↦ ⟨⟨path, hpath⟩, path, hpath, htext⟩
  exact ((List.forall₂_and_left _ _).1 hfound).1

theorem paths_of_unchecked {directory : Path} {root : Element}
    (h : element p (.unchecked directory) = .ok root) :
    root.paths = p.sources.map fun source ↦ (directory.source source).text := by
  have hwritten : List.Forall₂ (fun source text ↦ (directory.source source).text = text) p.sources
      root.paths := by
    refine (paths_of_element h).imp ?_
    rintro source text ⟨path, hpath, rfl⟩
    exact congrArg Path.text (Except.ok.inj hpath)
  exact (List.forall₂_eq_eq_eq ▸ List.forall₂_map_left_iff.2 hwritten).symm

end Source

end WixAuthoring
