import WixAuthoring.Proofs.Tree

namespace WixAuthoring.Source

/-!
# The parts of a document

A document that was written is made of its directory tree, its features, and parts that hold
neither directories nor components nor features. So what it holds of these is found in the tree
and in the features alone.
-/

open Xml Element

/-- What belongs to the features of a package: its files in the order in which they are declared,
then its variables in theirs, numbered from one, each with the feature it is given. -/
def memberships (p : Package) : List Membership :=
  p.placedFiles.map PlacedFile.membership ++
    (p.environment.zipIdx 1).map fun (v, index) ↦ ⟨v.feature, componentId (variableId v index)⟩

def propertyElements (p : Package) : List Element :=
  controlPanelElements p ++
    (p.entries.filterMap Entry.property?).map fun e ↦ propertyElement e.name e.value

def leadingElements (p : Package) : List Element :=
  [packageElement p, .leaf "MediaTemplate" [("EmbedCab", "yes")]] ++
    p.majorUpgrade.toList.map upgradeElement ++ propertyElements p

def trailingElements (p : Package) (license : List Element) : List Element :=
  (p.entries.filterMap Entry.setProperty?).map setPropertyElement ++
    actionElements (p.entries.filterMap Entry.customAction?) ++ license ++ uiElements p

def productElement (p : Package) (tree license : List Element) : Element :=
  .branch "Product" (productAttributes p)
    (leadingElements p ++ [targetElement p tree] ++ featureElements p (memberships p) ++
      trailingElements p license)

def documentElement (p : Package) (tree license : List Element) : Element :=
  .branch "Wix" [("xmlns", xmlns)] [productElement p tree license]

/-- The tree with the components of the variables behind what the first directory holds itself. -/
def withVariableComponents (p : Package) (declared : List Element) : List Element :=
  declared.modifyHead (Element.append (variableComponents p))

variable {p : Package} {files : FileSource} {root : Element}

theorem withVariables_eq_ok {declared tree : List Element}
    (h : withVariables p declared = .ok tree) :
    (declared = [] → p.environment = []) ∧ tree = withVariableComponents p declared := by
  cases declared with
  | nil =>
      rw [withVariables] at h
      split at h
      · next henv => exact ⟨fun _ ↦ henv, (Except.ok.inj h).symm⟩
      · cases h
  | cons first rest => exact ⟨by simp, (Except.ok.inj h).symm⟩

theorem licenseElements_eq_ok {license : List Element} (h : licenseElements p files = .ok license) :
    license = [] ∨ ∃ file path, given p.licenseFile = some file ∧ files.find file = .ok path ∧
      license = [.leaf "WixVariable" [("Id", "WixUILicenseRtf"), ("Value", path.text)]] := by
  unfold licenseElements at h
  split at h
  · exact .inl (Except.ok.inj h).symm
  · next file hfile =>
      obtain ⟨path, hpath, h⟩ := bind_eq_ok_iff.1 h
      exact .inr ⟨file, path, hfile, hpath, (Except.ok.inj h).symm⟩

/-- What the product element holds when some files were given to features. -/
def productChildren (p : Package) (tree license : List Element) (members : List Membership) :
    List Element :=
  leadingElements p ++ [targetElement p tree] ++ featureElements p (members ++ variableMembers p) ++
    trailingElements p license

/-- The steps of a document, when its entries have been sorted and its variables numbered. -/
theorem element_eq (p : Package) (files : FileSource) : element p files =
    checkEntries p >>= fun _ ↦
    entries p files "INSTALLDIR" none (directories p) >>= fun found ↦
    withVariables p found.1 >>= fun tree ↦
    licenseElements p files >>= fun license ↦
    .ok (.branch "Wix" [("xmlns", xmlns)]
      [.branch "Product" (productAttributes p) (productChildren p tree license found.2)]) := by
  rw [element, sortEntries_eq]
  cases checkEntries p with
  | error e => rfl
  | ok a =>
      change entries p files "INSTALLDIR" none (directories p) >>= _ = _ >>= _
      cases entries p files "INSTALLDIR" none (directories p) with
      | error e => rfl
      | ok found =>
          change addVariables p.guid p.environment found.1 >>= _ = withVariables p found.1 >>= _
          rw [addVariables_eq]
          cases withVariables p found.1 with
          | error e => rfl
          | ok tree =>
              simp only [productChildren, leadingElements, trailingElements, propertyElements,
                List.append_assoc]
              rfl

/-- What a document that was written is made of. -/
theorem element_eq_ok (h : element p files = .ok root) :
    ∃ declared license, checkEntries p = .ok () ∧
      Mirrors p.guid files [] (directories p) declared ∧
      (declared = [] → p.environment = []) ∧
      licenseElements p files = .ok license ∧
      root = documentElement p (withVariableComponents p declared) license := by
  rw [element_eq, bind_eq_ok_iff] at h
  obtain ⟨⟨⟩, hcheck, h⟩ := h
  obtain ⟨⟨declared, members⟩, htree, h⟩ := bind_eq_ok_iff.1 h
  obtain ⟨tree, hvariables, h⟩ := bind_eq_ok_iff.1 h
  obtain ⟨license, hlicense, h⟩ := bind_eq_ok_iff.1 h
  have htop : entries p files (folderId []) (nearestFeature []) (directories p) =
      .ok (declared, members) := htree
  obtain ⟨hmirrors, rfl⟩ := mirrors_of_entries htop
  obtain ⟨hdirectory, rfl⟩ := withVariables_eq_ok hvariables
  refine ⟨declared, license, hcheck, hmirrors, hdirectory, hlicense, ?_⟩
  exact (Except.ok.inj h).symm

/-! ## Where the names of a document are found -/

theorem name_of_mem_leadingElements {e : Element} (he : e ∈ flattenAll (leadingElements p)) :
    e.name ∈ ["Package", "MediaTemplate", "MajorUpgrade", "Property"] := by
  have hchildless : ∀ x ∈ leadingElements p, x.children = [] ∧
      x.name ∈ ["Package", "MediaTemplate", "MajorUpgrade", "Property"] := by
    intro x hx
    simp only [leadingElements, propertyElements, controlPanelElements, List.mem_append, List.mem_map,
      List.mem_cons] at hx
    rcases hx with ((rfl | rfl | hx) | ⟨u, -, rfl⟩) | hx | ⟨e, -, rfl⟩
    · simp [packageElement]
    · simp
    · simp at hx
    · simp [upgradeElement]
    · split at hx
      · simp at hx
      · simp [List.mem_singleton.1 hx, propertyElement]
    · simp [propertyElement]
  rw [flattenAll_of_childless fun x hx ↦ (hchildless x hx).1] at he
  exact (hchildless e he).2

theorem name_of_mem_trailingElements {license : List Element} {e : Element}
    (hlicense : licenseElements p files = .ok license)
    (he : e ∈ flattenAll (trailingElements p license)) :
    e.name ∈ ["SetProperty", "CustomAction", "InstallExecuteSequence", "Custom", "WixVariable",
      "UIRef"] := by
  simp only [trailingElements, flattenAll_append, List.mem_append] at he
  rcases he with ((he | he) | he) | he
  · rw [flattenAll_map_of_childless fun _ ↦ rfl] at he
    obtain ⟨s, -, rfl⟩ := List.mem_map.1 he
    simp [setPropertyElement]
  · unfold actionElements at he
    split at he
    · simp at he
    · rw [flattenAll_append, flattenAll_map_of_childless fun _ ↦ rfl, flattenAll_cons,
        flattenAll_nil, children_branch, flattenAll_map_of_childless fun _ ↦ rfl] at he
      simp only [List.mem_append, List.mem_map, List.mem_cons] at he
      rcases he with ⟨a, -, rfl⟩ | (rfl | ⟨a, -, rfl⟩) | he
      · simp [customActionElement]
      · simp
      · simp [scheduleElement]
      · simp at he
  · obtain rfl | ⟨file, path, -, -, rfl⟩ := licenseElements_eq_ok hlicense
    · simp at he
    · simp_all
  · rw [uiElements, flattenAll_map_of_childless fun _ ↦ rfl] at he
    obtain ⟨ui, -, rfl⟩ := List.mem_map.1 he
    simp

/-- The names that stand outside the directories and the features. -/
def outerNames : List String :=
  ["Wix", "Product", "Package", "MediaTemplate", "MajorUpgrade", "Property", "SetProperty",
   "CustomAction", "InstallExecuteSequence", "Custom", "WixVariable", "UIRef"]

theorem named_documentElement {tree license : List Element} {name : String}
    (hlicense : licenseElements p files = .ok license) (hname : name ∉ outerNames) :
    (documentElement p tree license).named name =
      (targetElement p tree).named name ++ namedAmong name (featureElements p (memberships p)) := by
  have hlead : namedAmong name (leadingElements p) = [] :=
    namedAmong_eq_nil (fun e he ↦ name_of_mem_leadingElements he) (by simp_all [outerNames])
  have htrail : namedAmong name (trailingElements p license) = [] :=
    namedAmong_eq_nil (fun e he ↦ name_of_mem_trailingElements hlicense he)
      (by simp_all [outerNames])
  have hwix : "Wix" ≠ name := by rintro rfl; simp [outerNames] at hname
  have hproduct : "Product" ≠ name := by rintro rfl; simp [outerNames] at hname
  simp [documentElement, productElement, named_eq _ name, namedAmong_cons, hwix, hproduct, hlead,
    htrail]

theorem names_variableComponents (p : Package) :
    ∀ x ∈ flattenAll (variableComponents p), x.name ∈ ["Component", "Condition", "Environment"] := by
  intro x hx
  obtain ⟨e, he, hx⟩ := mem_flattenAll.1 hx
  obtain ⟨⟨v, index⟩, -, rfl⟩ := List.mem_map.1 he
  simp only [variableComponent, flatten_eq, children_branch, flattenAll_append, conditionElements,
    flattenAll_map_of_childless (fun _ ↦ children_textLeaf _ _ _), flattenAll_cons, flattenAll_nil,
    List.mem_cons, List.mem_append, List.mem_map] at hx
  rcases hx with rfl | ⟨_, -, rfl⟩ | (rfl | hx) | hx
  · simp
  · simp
  · simp [variableElement]
  · simp [variableElement] at hx
  · simp at hx

theorem named_component_variableComponent (package : Guid) (v : EnvironmentVariable)
    (index : Nat) :
    (variableComponent package v index).named "Component" =
      [variableComponent package v index] := by
  cases h : given v.condition <;>
    simp [named_eq, namedAmong, variableComponent, conditionElements, variableElement, h]

theorem named_environment_variableComponent (package : Guid) (v : EnvironmentVariable)
    (index : Nat) :
    (variableComponent package v index).named "Environment" =
      [variableElement (variableId v index) v] := by
  cases h : given v.condition <;>
    simp [named_eq, namedAmong, variableComponent, conditionElements, variableElement, h]

theorem namedAmong_component_variableComponents (p : Package) :
    namedAmong "Component" (variableComponents p) = variableComponents p := by
  rw [variableComponents, namedAmong_map]
  simp [named_component_variableComponent, List.map_eq_flatMap]

theorem namedAmong_environment_variableComponents (p : Package) :
    namedAmong "Environment" (variableComponents p) =
      (numberedVariables p).map fun (v, index) ↦ variableElement (variableId v index) v := by
  rw [variableComponents, namedAmong_map]
  simp [named_environment_variableComponent, List.map_eq_flatMap]

/-- A name that is not the one of directories is found in the declared tree, and in between in the
components of the variables. -/
theorem namedAmong_withVariableComponents {declared : List Element} (name : String)
    (h : Mirrors p.guid files [] (directories p) declared)
    (hdeclared : declared = [] → p.environment = []) (hname : name ≠ "Directory") :
    ∃ before after, namedAmong name declared = before ++ after ∧
      namedAmong name (withVariableComponents p declared) =
        before ++ namedAmong name (variableComponents p) ++ after := by
  apply namedAmong_modifyHead_append
  · intro hnil
    simp [variableComponents, numberedVariables, hdeclared hnil]
  · intro e he
    rw [h.name_eq_directory (by simp [directories]) e he]
    exact hname.symm

theorem name_of_mem_featureElements {members : List Membership} {e : Element}
    (he : e ∈ featureElements p members) : e.name ∈ ["Feature"] := by
  obtain ⟨⟨f, components⟩, -, rfl⟩ := List.mem_map.1 he
  simp [featureElement]

theorem named_featureElement (f : Option FeatureRef) (components : List String) (name : String) :
    (featureElement p f components).named name =
      (if "Feature" = name then [featureElement p f components] else []) ++
        if "ComponentRef" = name then components.map fun id ↦ .leaf "ComponentRef" [("Id", id)]
        else [] := by
  have hrefs : namedAmong name (components.map fun id ↦ .leaf "ComponentRef" [("Id", id)]) =
      if "ComponentRef" = name then components.map fun id ↦ .leaf "ComponentRef" [("Id", id)]
      else [] := by
    rw [namedAmong, flattenAll_map_of_childless fun _ ↦ rfl]
    split <;> simp_all
  rw [named_eq, ← hrefs]
  rfl

theorem named_targetElement {name : String} (hname : name ≠ "Directory") (tree : List Element) :
    (targetElement p tree).named name = namedAmong name tree := by
  rw [targetElement, named_directory_ne hname, namedAmong_cons_of_ne (by simpa using hname.symm)]
  simp

theorem namedAmong_featureElements_of_ne {name : String} {members : List Membership}
    (hfeature : name ≠ "Feature") (href : name ≠ "ComponentRef") :
    namedAmong name (featureElements p members) = [] := by
  rw [featureElements, namedAmong_map]
  simp [named_featureElement, hfeature.symm, href.symm]

theorem named_tree_name {tree license : List Element} (name : String)
    (hlicense : licenseElements p files = .ok license)
    (hname : name ∉ "Directory" :: "Feature" :: "ComponentRef" :: outerNames) :
    (documentElement p tree license).named name = namedAmong name tree := by
  simp only [List.mem_cons, not_or] at hname
  obtain ⟨hdirectory, hfeature, href, houter⟩ := hname
  rw [named_documentElement hlicense houter, named_targetElement hdirectory,
    namedAmong_featureElements_of_ne hfeature href, List.append_nil]

/-- The components of a document are those of files, and in between those of variables. -/
theorem named_component_eq (h : element p files = .ok root) : ∃ before after,
    root.named "Component" = before ++ variableComponents p ++ after ∧
    List.Forall₂ (IsFileComponent p.guid files) p.placedFiles (before ++ after) := by
  obtain ⟨declared, license, -, hmirrors, hdeclared, hlicense, rfl⟩ := element_eq_ok h
  obtain ⟨before, after, hfiles, htree⟩ :=
    namedAmong_withVariableComponents "Component" hmirrors hdeclared (by decide)
  refine ⟨before, after, ?_, hfiles ▸ hmirrors.components⟩
  rw [named_tree_name "Component" hlicense (by decide), htree,
    namedAmong_component_variableComponents]

/-- The variables of a package are set in their order, and nothing else is. -/
theorem named_environment_eq (h : element p files = .ok root) :
    root.named "Environment" =
      (numberedVariables p).map fun (v, index) ↦ variableElement (variableId v index) v := by
  obtain ⟨declared, license, -, hmirrors, hdeclared, hlicense, rfl⟩ := element_eq_ok h
  obtain ⟨before, after, hfiles, htree⟩ :=
    namedAmong_withVariableComponents "Environment" hmirrors hdeclared (by decide)
  rw [namedAmong_eq_nil hmirrors.names (by decide), eq_comm, List.append_eq_nil_iff] at hfiles
  rw [named_tree_name "Environment" hlicense (by decide), htree, hfiles.1, hfiles.2,
    List.nil_append, List.append_nil, namedAmong_environment_variableComponents]

theorem named_feature_name {declared license : List Element} (name : String)
    (h : Mirrors p.guid files [] (directories p) declared)
    (hdeclared : declared = [] → p.environment = [])
    (hlicense : licenseElements p files = .ok license)
    (hname : name ∈ ["Feature", "ComponentRef"]) :
    (documentElement p (withVariableComponents p declared) license).named name =
      namedAmong name (featureElements p (memberships p)) := by
  have htree : name ∉ ["Directory", "Component", "File"] ∧
      name ∉ ["Component", "Condition", "Environment"] ∧ name ∉ outerNames ∧ name ≠ "Directory" := by
    simp only [List.mem_cons, List.not_mem_nil, or_false] at hname
    rcases hname with rfl | rfl <;> decide
  obtain ⟨hfiles, hvariables, houter, hdirectory⟩ := htree
  obtain ⟨before, after, hdeclaredName, htreeName⟩ :=
    namedAmong_withVariableComponents name h hdeclared hdirectory
  rw [namedAmong_eq_nil h.names hfiles, eq_comm, List.append_eq_nil_iff] at hdeclaredName
  rw [namedAmong_eq_nil (names_variableComponents p) hvariables, hdeclaredName.1,
    hdeclaredName.2] at htreeName
  rw [named_documentElement hlicense houter, named_targetElement hdirectory, htreeName,
    List.nil_append]
  rfl

end WixAuthoring.Source
