import WixAuthoring.Proofs.FeatureIds
import WixAuthoring.Proofs.Identity
import WixAuthoring.Proofs.Scopes

namespace WixAuthoring

/-!
# The identifiers in a document are legal

Every identifier of a document is made from names, or it was given to a directory. What is made from a
name is always legal, so the names may hold anything, and those that were given are the only ones that
have to be looked at.
-/

namespace Identifier

theorem identifier_of_isLegal {name : String} (h : IsLegal name.toList) : identifier name = name := by
  rw [identifier, ofChars_of_isLegal h, String.ofList_toList]

theorem identifier_identifier (name : String) : identifier (identifier name) = identifier name :=
  identifier_of_isLegal (isLegal_identifier name)

theorem identifier_eq_self_iff {name : String} : identifier name = name ↔ IsLegal name.toList :=
  ⟨fun h ↦ h ▸ isLegal_identifier name, identifier_of_isLegal⟩

end Identifier

namespace Entry

mutual

/-- The identifiers that are given to directories, at any depth. -/
def givenIds : Entry → List String
  | .directory _ inner _ id => (given id).toList ++ allGivenIds inner
  | _ => []

def allGivenIds : List Entry → List String
  | [] => []
  | e :: rest => e.givenIds ++ allGivenIds rest

end

theorem allGivenIds_eq_flatMap (es : List Entry) : allGivenIds es = es.flatMap givenIds := by
  induction es with
  | nil => rfl
  | cons e rest ih => rw [allGivenIds, ih, List.flatMap_cons]

theorem allGivenIds_directories_subset (p : Package) :
    allGivenIds (Source.directories p) ⊆ allGivenIds p.entries := by
  intro id hid
  rw [allGivenIds_eq_flatMap, List.mem_flatMap] at hid ⊢
  obtain ⟨e, he, hid⟩ := hid
  exact ⟨e, List.mem_of_mem_filter he, hid⟩

end Entry

namespace Source

open Xml Element Identifier

/-- Holds of an element with a legal identifier. -/
def HasLegalId (e : Element) : Prop := ∃ id, e.attribute? "Id" = some id ∧ IsLegal id.toList

theorem hasLegalId_of_perm {α : Type} {es : List Element} {l : List α} {id : α → String}
    (h : (es.map (·.attribute? "Id")).Perm (l.map fun a ↦ some (id a)))
    (hmade : ∀ a ∈ l, ∃ name, id a = identifier name) : ∀ e ∈ es, HasLegalId e := by
  intro e he
  obtain ⟨a, ha, hid⟩ := List.mem_map.1 (h.subset (List.mem_map_of_mem he))
  obtain ⟨name, hname⟩ := hmade a ha
  exact ⟨identifier name, by rw [← hid, hname], isLegal_identifier name⟩

theorem isLegal_directoryId {id : Option String} (h : ∀ i, given id = some i → IsLegal i.toList)
    (parentId name : String) : IsLegal (directoryId parentId name id).toList := by
  rw [directoryId]
  cases hid : given id with
  | none => exact isLegal_identifier _
  | some i => exact h i hid

variable {p : Package} {files : FileSource} {root : Element}

/-! ## Directories -/

/-- Holds when the directories among some elements and below them have legal identifiers. -/
def LegalDirectories (es : List Element) : Prop :=
  ∀ x ∈ flattenAll es, x.name = "Directory" → HasLegalId x

@[simp] theorem legalDirectories_nil : LegalDirectories [] := by simp [LegalDirectories]

@[simp] theorem legalDirectories_cons {e : Element} {es : List Element} :
    LegalDirectories (e :: es) ↔ (e.name = "Directory" → HasLegalId e) ∧
      LegalDirectories e.children ∧ LegalDirectories es :=
  forall_mem_flattenAll_node

@[simp] theorem legalDirectories_append {es fs : List Element} :
    LegalDirectories (es ++ fs) ↔ LegalDirectories es ∧ LegalDirectories fs :=
  forall_mem_flattenAll_append

theorem Mirrors.legalDirectories {package : Guid} {above : List Folder} {es : List Entry}
    {elements : List Element} (h : Mirrors package files above es elements)
    (hgiven : ∀ id ∈ Entry.allGivenIds es, IsLegal id.toList) : LegalDirectories elements := by
  induction h with
  | nil => exact legalDirectories_nil
  | file above f path rest more hpath hrest ih =>
      rw [legalDirectories_cons]
      refine ⟨fun hname ↦ absurd hname (by simp), ?_, ih hgiven⟩
      exact legalDirectories_cons.2 ⟨fun hname ↦ absurd hname (by simp), by simp⟩
  | directory above name inner own id children rest more hinner hrest ihinner ih =>
      rw [Entry.allGivenIds, Entry.givenIds, List.forall_mem_append, List.forall_mem_append] at hgiven
      obtain ⟨⟨hid, hbelow⟩, hbeside⟩ := hgiven
      have hown : ∀ i, given id = some i → IsLegal i.toList := fun i hi ↦ hid i (by simp [hi])
      have hlegal := isLegal_directoryId hown (folderId above) name
      rw [legalDirectories_cons]
      exact ⟨fun _ ↦ ⟨_, rfl, hlegal⟩, ihinner hbelow, ih hbeside⟩

theorem legalDirectories_withVariableComponents {declared : List Element}
    (h : LegalDirectories declared) : LegalDirectories (withVariableComponents p declared) := by
  cases declared with
  | nil => exact legalDirectories_nil
  | cons first rest =>
      obtain ⟨tag, attributes, text, children⟩ := first
      obtain ⟨hfirst, hchildren, hrest⟩ := legalDirectories_cons.1 h
      refine legalDirectories_cons.2 ⟨hfirst, legalDirectories_append.2 ⟨hchildren, ?_⟩, hrest⟩
      -- no directory stands among the components of variables
      intro x hx hname
      exact absurd (names_variableComponents p x hx) (by rw [hname]; decide)

theorem legalDirectories_targetElement {tree : List Element} (h : LegalDirectories tree) :
    LegalDirectories [targetElement p tree] := by
  have hfolder : IsLegal (programFilesFolder p.platform).toList := by
    rw [programFilesFolder]
    split <;> decide
  refine legalDirectories_cons.2 ⟨fun _ ↦ ⟨_, rfl, by decide⟩, ?_, legalDirectories_nil⟩
  exact legalDirectories_cons.2 ⟨fun _ ↦ ⟨_, rfl, hfolder⟩, h, legalDirectories_nil⟩

theorem hasLegalId_directory (h : element p files = .ok root)
    (hgiven : ∀ id ∈ Entry.allGivenIds p.entries, IsLegal id.toList) :
    ∀ e ∈ root.named "Directory", HasLegalId e := by
  obtain ⟨declared, license, -, hmirrors, -, hlicense, rfl⟩ := element_eq_ok h
  have hdeclared := hmirrors.legalDirectories fun id hid ↦
    hgiven id (Entry.allGivenIds_directories_subset p hid)
  have htarget := legalDirectories_targetElement (p := p)
    (legalDirectories_withVariableComponents (p := p) hdeclared)
  rw [named_documentElement hlicense (by decide),
    namedAmong_featureElements_of_ne (by decide) (by decide), List.append_nil]
  intro e he
  obtain ⟨he, hname⟩ := List.mem_filter.1 he
  exact htarget e (by simpa [flatten_eq] using he) (by simpa using hname)

/-! ## Components, files, variables and features -/

theorem exists_component_eq_identifier {m : Membership} (h : m ∈ memberships p) :
    ∃ name, m.component = identifier name := by
  rcases List.mem_append.1 h with h | h
  · obtain ⟨f, -, rfl⟩ := List.mem_map.1 h
    exact ⟨_, rfl⟩
  · obtain ⟨v, -, rfl⟩ := List.mem_map.1 h
    exact ⟨_, rfl⟩

theorem hasLegalId_component (h : element p files = .ok root) :
    ∀ e ∈ root.named "Component", HasLegalId e := by
  obtain ⟨before, after, hcomponents, hfiles⟩ := named_component_eq h
  have hperm : (root.named "Component").Perm (before ++ after ++ variableComponents p) := by
    rw [hcomponents, List.append_assoc, List.append_assoc]
    exact List.perm_append_comm.append_left before
  have hids := hperm.map (·.attribute? "Id")
  rw [memberships_ids hfiles] at hids
  exact hasLegalId_of_perm hids fun _ ↦ exists_component_eq_identifier

theorem hasLegalId_componentRef (h : element p files = .ok root) :
    ∀ e ∈ root.named "ComponentRef", HasLegalId e := by
  obtain ⟨declared, license, -, hmirrors, hdeclared, hlicense, rfl⟩ := element_eq_ok h
  rw [named_feature_name "ComponentRef" hmirrors hdeclared hlicense (by decide)]
  exact hasLegalId_of_perm (componentRef_ids_perm p (memberships p))
    fun _ ↦ exists_component_eq_identifier

theorem hasLegalId_file (h : element p files = .ok root) :
    ∀ e ∈ root.named "File", HasLegalId e :=
  hasLegalId_of_perm (.of_eq (file_ids h)) fun _ _ ↦ ⟨_, rfl⟩

theorem environment_ids (h : element p files = .ok root) :
    (root.named "Environment").map (·.attribute? "Id") =
      (numberedVariables p).map fun (v, index) ↦ some (variableId v index) := by
  rw [named_environment_eq h, List.map_map]
  rfl

theorem hasLegalId_environment (h : element p files = .ok root) :
    ∀ e ∈ root.named "Environment", HasLegalId e :=
  hasLegalId_of_perm (.of_eq (environment_ids h)) fun _ _ ↦ ⟨_, rfl⟩

theorem hasLegalId_feature (h : element p files = .ok root)
    (hown : ∀ f ∈ p.mentionedFeatures, "Id" ∉ (p.feature f).attributes.map Prod.fst) :
    ∀ e ∈ root.named "Feature", HasLegalId e :=
  hasLegalId_of_perm (.of_eq (feature_ids h hown)) fun _ _ ↦ ⟨_, rfl⟩

/-- The names of the elements that an installer database has identifiers for. -/
def identifiedNames : List String :=
  ["Directory", "Component", "File", "Environment", "Feature", "ComponentRef"]

/-- When the identifiers that directories are given are legal and no feature brings one of its own,
all identifiers are legal, whatever the names they are made from. An identifier is made from every
name, and those names that are identifiers already are the ones that stay. -/
theorem identifiers_legal (h : element p files = .ok root)
    (hgiven : ∀ id ∈ Entry.allGivenIds p.entries, IsLegal id.toList)
    (hown : ∀ f ∈ p.mentionedFeatures, "Id" ∉ (p.feature f).attributes.map Prod.fst) :
    (∀ name ∈ identifiedNames, ∀ e ∈ root.named name, HasLegalId e) ∧
    ∀ name, IsLegal (identifier name).toList ∧
      identifier (identifier name) = identifier name ∧
      (identifier name = name ↔ IsLegal name.toList) := by
  refine ⟨fun name hname ↦ ?_, fun name ↦
    ⟨isLegal_identifier name, identifier_identifier name, identifier_eq_self_iff⟩⟩
  simp only [identifiedNames, List.mem_cons, List.not_mem_nil, or_false] at hname
  rcases hname with rfl | rfl | rfl | rfl | rfl | rfl
  · exact hasLegalId_directory h hgiven
  · exact hasLegalId_component h
  · exact hasLegalId_file h
  · exact hasLegalId_environment h
  · exact hasLegalId_feature h hown
  · exact hasLegalId_componentRef h

/-- A package with names that are empty, begin with digits or dots, or are in other scripts. -/
def oddPackage : Package where
  name := ""
  guid := Product.upgradeGuid
  version := ⟨0, [1], none, none, none, []⟩
  features := [{ name := "7½ días" }]
  entries := [.directory "" [.file ⟨"µ/.β", none, none⟩,
    .directory "2nd" [.file ⟨"1.txt", some 0, none⟩] none (some "_Second.2")] none (some ""),
    .environment { feature := none, name := "∅", value := "" }]

theorem oddPackage_identifiers_legal :
    ∃ root, element oddPackage (.unchecked .current) = .ok root ∧
      ∀ name ∈ identifiedNames, ∀ e ∈ root.named name, HasLegalId e := by
  have h : element oddPackage (.unchecked .current) = .ok _ := rfl
  exact ⟨_, h, (identifiers_legal h (by decide) (by decide)).1⟩

end Source

end WixAuthoring
