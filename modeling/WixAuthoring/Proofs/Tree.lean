import WixAuthoring.Proofs.Elements
import WixAuthoring.Proofs.Placement
import Mathlib.Data.List.Forall2

namespace WixAuthoring.Source

/-!
# What the tree of directories holds

A successful walk through the entries of a directory gives one element for each of them, in order.
The relation `Mirrors` says which one, and everything about the tree is an induction over it.
-/

open Xml Element

/-- The elements of entries that lie in some folders. -/
inductive Mirrors (package : Guid) (files : FileSource) :
    List Folder → List Entry → List Element → Prop
  | nil (above : List Folder) : Mirrors package files above [] []
  | file (above : List Folder) (f : PackagedFile) (path : Path) (rest : List Entry)
      (more : List Element) (hpath : files.find f.source = .ok path)
      (hrest : Mirrors package files above rest more) :
      Mirrors package files above (.file f :: rest)
        (fileComponent package (PlacedFile.mk above f).fileId f.installName path :: more)
  | directory (above : List Folder) (name : String) (inner : List Entry)
      (own : Option FeatureRef) (id : Option String) (children : List Element)
      (rest : List Entry) (more : List Element)
      (hinner : Mirrors package files (above ++ [⟨name, id, own⟩]) inner children)
      (hrest : Mirrors package files above rest more) :
      Mirrors package files above (.directory name inner own id :: rest)
        (directoryElement (directoryId (folderId above) name id) name children :: more)

variable {p : Package} {files : FileSource}

theorem entries_cons_eq_ok {parentId : String} {inherited : Option FeatureRef} {e : Entry}
    {rest : List Entry} {result : List Element × List Membership}
    (h : entries p files parentId inherited (e :: rest) = .ok result) :
    ∃ element members elements more,
      entry p files parentId inherited e = .ok (element, members) ∧
      entries p files parentId inherited rest = .ok (elements, more) ∧
      result = (element :: elements, members ++ more) := by
  rw [entries, bind_eq_ok_iff] at h
  obtain ⟨⟨element, members⟩, he, h⟩ := h
  rw [bind_eq_ok_iff] at h
  obtain ⟨⟨elements, more⟩, hrest, h⟩ := h
  exact ⟨element, members, elements, more, he, hrest, (Except.ok.inj h).symm⟩

theorem entry_file_eq_ok {parentId : String} {inherited : Option FeatureRef} {f : PackagedFile}
    {result : Element × List Membership}
    (h : entry p files parentId inherited (.file f) = .ok result) :
    ∃ path, files.find f.source = .ok path ∧
      result = (fileComponent p.guid (fileId parentId f.installName) f.installName path,
        [⟨f.feature.or inherited, componentId (fileId parentId f.installName)⟩]) := by
  rw [entry, bind_eq_ok_iff] at h
  obtain ⟨path, hpath, h⟩ := h
  exact ⟨path, hpath, (Except.ok.inj h).symm⟩

theorem entry_directory_eq_ok {parentId : String} {inherited : Option FeatureRef} {name : String}
    {inner : List Entry} {own : Option FeatureRef} {id : Option String}
    {result : Element × List Membership}
    (h : entry p files parentId inherited (.directory name inner own id) = .ok result) :
    ∃ children members,
      entries p files (directoryId parentId name id) (own.or inherited) inner =
        .ok (children, members) ∧
      result = (directoryElement (directoryId parentId name id) name children, members) := by
  rw [entry, bind_eq_ok_iff] at h
  obtain ⟨⟨children, members⟩, hinner, h⟩ := h
  exact ⟨children, members, hinner, (Except.ok.inj h).symm⟩

/-- The walk passes identifier and feature of the folders down, and notes the files in order. -/
theorem mirrors_of_entries {above : List Folder} {es : List Entry} {elements : List Element}
    {members : List Membership}
    (h : entries p files (folderId above) (nearestFeature above) es = .ok (elements, members)) :
    Mirrors p.guid files above es elements ∧
      members = (Entry.allPlaced above es).map PlacedFile.membership := by
  match es with
  | [] =>
      rw [entries] at h
      obtain ⟨rfl, rfl⟩ := Prod.mk.inj (Except.ok.inj h)
      exact ⟨.nil above, by simp⟩
  | .file f :: rest =>
      obtain ⟨element, own, more, others, he, hrest, heq⟩ := entries_cons_eq_ok h
      obtain ⟨path, hpath, hfile⟩ := entry_file_eq_ok he
      obtain ⟨ih, hothers⟩ := mirrors_of_entries hrest
      obtain ⟨rfl, rfl⟩ := Prod.mk.inj heq
      obtain ⟨rfl, rfl⟩ := Prod.mk.inj hfile
      exact ⟨.file above f path rest more hpath ih, by simp [hothers]; rfl⟩
  | .directory name inner own id :: rest =>
      obtain ⟨element, within, more, others, he, hrest, heq⟩ := entries_cons_eq_ok h
      obtain ⟨children, inside, hinner, hdir⟩ := entry_directory_eq_ok he
      obtain ⟨ih, hothers⟩ := mirrors_of_entries hrest
      obtain ⟨rfl, rfl⟩ := Prod.mk.inj heq
      obtain ⟨rfl, rfl⟩ := Prod.mk.inj hdir
      have hinner' : entries p files (folderId (above ++ [⟨name, id, own⟩]))
          (nearestFeature (above ++ [⟨name, id, own⟩])) inner = .ok (children, within) := by
        simpa using hinner
      obtain ⟨ihinner, hinside⟩ := mirrors_of_entries hinner'
      exact ⟨.directory above name inner own id children rest more ihinner ih, by
        simp [hinside, hothers]⟩
  | .property _ :: _ | .environment _ :: _ | .setProperty _ :: _ | .customAction _ :: _
  | .feature _ :: _ | .scalar _ :: _ =>
      obtain ⟨element, own, more, others, he, -⟩ := entries_cons_eq_ok h
      simp [entry] at he

/-! ## What is found in the tree -/

theorem Mirrors.name_eq_directory {package : Guid} {above : List Folder} {es : List Entry}
    {elements : List Element} (h : Mirrors package files above es elements)
    (hes : ∀ e ∈ es, e.isDirectory = true) : ∀ x ∈ elements, x.name = "Directory" := by
  induction h with
  | nil => simp
  | file above f path rest more hpath hrest ih => simp [Entry.isDirectory] at hes
  | directory above name inner own id children rest more hinner hrest ihinner ih =>
      intro x hx
      rcases List.mem_cons.1 hx with rfl | hx
      · rfl
      · exact ih (fun e he ↦ hes e (List.mem_cons_of_mem _ he)) x hx

theorem Mirrors.names {package : Guid} {above : List Folder} {es : List Entry}
    {elements : List Element} (h : Mirrors package files above es elements) :
    ∀ x ∈ flattenAll elements, x.name ∈ ["Directory", "Component", "File"] := by
  induction h with
  | nil => simp
  | file above f path rest more hpath hrest ih =>
      intro x hx
      simp only [fileComponent, flattenAll_cons, children_branch, children_leaf, flattenAll_nil,
        List.append_nil, List.mem_append, List.mem_cons, List.not_mem_nil, or_false] at hx
      rcases hx with (rfl | rfl) | hx
      · simp
      · simp
      · exact ih x hx
  | directory above name inner own id children rest more hinner hrest ihinner ih =>
      intro x hx
      simp only [flattenAll_cons, children_directoryElement, List.mem_append, List.mem_cons] at hx
      rcases hx with (rfl | hx) | hx
      · simp
      · exact ihinner x hx
      · exact ih x hx

theorem named_directory_ne {name id folder : String} {children : List Element}
    (hname : name ≠ "Directory") :
    (directoryElement id folder children).named name = namedAmong name children := by
  rw [named_eq, if_neg (by simpa using hname.symm), List.nil_append, children_directoryElement]

theorem named_component_fileComponent (package : Guid) (id installName : String) (path : Path) :
    (fileComponent package id installName path).named "Component" =
      [fileComponent package id installName path] := by
  simp [named_eq, fileComponent, namedAmong]

/-- Holds of the component of a file, with the path that is found for it. -/
def IsFileComponent (package : Guid) (files : FileSource) (f : PlacedFile) (e : Element) : Prop :=
  ∃ path, files.find f.file.source = .ok path ∧
    e = fileComponent package f.fileId f.file.installName path

theorem Mirrors.components {package : Guid} {above : List Folder} {es : List Entry}
    {elements : List Element} (h : Mirrors package files above es elements) :
    List.Forall₂ (IsFileComponent package files) (Entry.allPlaced above es)
      (namedAmong "Component" elements) := by
  induction h with
  | nil => simp
  | file above f path rest more hpath hrest ih =>
      rw [namedAmong_cons, named_component_fileComponent, Entry.allPlaced_file]
      exact .cons ⟨path, hpath, rfl⟩ ih
  | directory above name inner own id children rest more hinner hrest ihinner ih =>
      rw [namedAmong_cons, named_directory_ne (by decide), Entry.allPlaced_directory]
      exact List.rel_append ihinner ih

theorem exists_isFileComponent_of_mem {package : Guid} {placed : List PlacedFile}
    {components : List Element} {e : Element}
    (h : List.Forall₂ (IsFileComponent package files) placed components) (he : e ∈ components) :
    ∃ f ∈ placed, IsFileComponent package files f e := by
  induction h with
  | nil => simp at he
  | @cons f x placed components hf hrest ih =>
      rcases List.mem_cons.1 he with rfl | he
      · exact ⟨f, by simp, hf⟩
      · obtain ⟨g, hg, hge⟩ := ih he
        exact ⟨g, by simp [hg], hge⟩

theorem fileComponent_ids {package : Guid} {placed : List PlacedFile}
    {fileComponents : List Element}
    (h : List.Forall₂ (IsFileComponent package files) placed fileComponents) :
    fileComponents.map (·.attribute? "Id") = placed.map fun f ↦ some f.componentId := by
  induction h with
  | nil => rfl
  | cons hf _ ih =>
      obtain ⟨path, -, rfl⟩ := hf
      rw [List.map_cons, List.map_cons, ih]
      rfl

end WixAuthoring.Source
