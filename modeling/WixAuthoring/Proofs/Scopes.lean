import WixAuthoring.Proofs.Directories
import WixAuthoring.Proofs.Features

namespace WixAuthoring

/-!
# Every variable is set once in each scope

A condition asks for properties that are set for an installation. Of the two declarations of a
variable one asks for the whole machine and the other one for a single user, so in either scope
exactly one of them takes effect, under the feature that the variable was declared with.
-/

namespace Condition

/-- Whether some words hold: a name when the property is set, and NOT turns round what follows. Other
words have no meaning here. -/
def wordsHold (isSet : String → Bool) : List String → Option Bool
  | [] => none
  | [name] => some (isSet name)
  | word :: rest => if word = "NOT" then (wordsHold isSet rest).map not else none

/-- Whether a condition holds when some properties are set. -/
def holds (isSet : String → Bool) (condition : String) : Option Bool :=
  wordsHold isSet (Text.split (· == ' ') condition)

@[simp] theorem holds_machineCondition (isSet : String → Bool) :
    holds isSet EnvironmentVariable.machineCondition =
      some (isSet EnvironmentVariable.machineCondition) := rfl

@[simp] theorem holds_userCondition (isSet : String → Bool) :
    holds isSet EnvironmentVariable.userCondition =
      some (!isSet EnvironmentVariable.machineCondition) := rfl

end Condition

namespace EnvironmentVariable

theorem expand_of_mem_expand {v w : EnvironmentVariable} (h : w ∈ v.expand) :
    w.expand = v.expand := by
  simp only [expand, List.mem_cons, List.not_mem_nil, or_false] at h
  rcases h with rfl | rfl <;> rfl

/-- Each variable once for each of its two declarations. -/
def doubled (declared : List EnvironmentVariable) : List EnvironmentVariable :=
  declared.flatMap fun v ↦ [v, v]

@[simp] theorem doubled_nil : doubled [] = [] := rfl

@[simp] theorem doubled_cons (v : EnvironmentVariable) (declared : List EnvironmentVariable) :
    doubled (v :: declared) = v :: v :: doubled declared := rfl

@[simp] theorem expandAll_cons (v : EnvironmentVariable) (declared : List EnvironmentVariable) :
    expandAll (v :: declared) = v.forMachine :: v.forUser :: expandAll declared := rfl

@[simp] theorem length_doubled (declared : List EnvironmentVariable) :
    (doubled declared).length = 2 * declared.length := by
  induction declared with
  | nil => rfl
  | cons v declared ih =>
      rw [doubled_cons, List.length_cons, List.length_cons, List.length_cons, ih]
      omega

end EnvironmentVariable

namespace Source

open Xml Element EnvironmentVariable

/-- Holds of a component when every condition in it does. -/
def isActive (isSet : String → Bool) (component : Element) : Bool :=
  component.children.all fun e ↦ e.name ≠ "Condition" || Condition.holds isSet e.text == some true

/-- What a document does to a variable, and the component that does it. -/
structure Setting where
  component : Element
  environment : Element

def settings (root : Element) : List Setting :=
  (root.named "Component").flatMap fun c ↦ (c.named "Environment").map fun e ↦ ⟨c, e⟩

/-- The settings of a document, each with the variable whose turn it is when there are two for each. -/
def assigned (declared : List EnvironmentVariable) (root : Element) :
    List (EnvironmentVariable × Setting) :=
  (doubled declared).zip (settings root)

/-- Holds of the element of a feature that refers to the components of its files and to those of the
variables that were declared with it, and to nothing else. What is given no feature is owned by a
feature with the name of the package. -/
structure Owns (p : Package) (settings : List (EnvironmentVariable × Setting))
    (owner : Option FeatureRef) (e : Element) : Prop where
  attributes_eq : ∃ f, f = owner.elim { name := p.name, allowChange := false }
      (p.features.getD · { name := "" }) ∧
    e.attributes = Attributes.update
      ([("Id", identifier f.name), ("Title", f.name), ("Level", if f.enabled then "1" else "2"),
        ("Absent", if f.allowChange then "allow" else "disallow")] ++
        if f.description = "" then [] else [("Description", f.description)]) f.attributes
  references_eq : (e.named "ComponentRef").map (·.attribute? "Id") =
    (p.placedFiles.filter (·.feature = owner)).map (fun f ↦ some f.componentId) ++
      (settings.filter (·.1.feature = owner)).map fun x ↦ x.2.component.attribute? "Id"

/-! ## The settings of a document -/

variable {p : Package} {files : FileSource} {root : Element} {package : Guid}
  {declared : List EnvironmentVariable}

def setting (package : Guid) (v : EnvironmentVariable) (index : Nat) : Setting :=
  ⟨variableComponent package v index, variableElement (variableId v index) v⟩

theorem named_environment_of_isFileComponent {f : PlacedFile} {e : Element}
    (h : IsFileComponent package files f e) : e.named "Environment" = [] := by
  obtain ⟨path, -, rfl⟩ := h
  simp [named_eq, fileComponent, namedAmong]

theorem settings_eq (h : element p files = .ok root) :
    settings root = (numberedVariables p).map fun (v, index) ↦ setting p.guid v index := by
  obtain ⟨before, after, hcomponents, hfiles⟩ := named_component_eq h
  have hnone : ∀ e ∈ before ++ after, e.named "Environment" = [] := by
    intro e he
    obtain ⟨f, -, hf⟩ := exists_isFileComponent_of_mem hfiles he
    exact named_environment_of_isFileComponent hf
  have hempty : ∀ es ⊆ before ++ after,
      (es.flatMap fun c ↦ (c.named "Environment").map fun e ↦ Setting.mk c e) = [] := by
    intro es hes
    simpa [List.flatMap_eq_nil_iff] using fun e he ↦ hnone e (hes he)
  rw [settings, hcomponents, List.flatMap_append, List.flatMap_append,
    hempty before (List.subset_append_left ..), hempty after (List.subset_append_right ..),
    List.nil_append, List.append_nil, variableComponents, List.flatMap_map, List.map_eq_flatMap]
  simp only [named_environment_variableComponent]
  rfl

theorem named_environment (h : element p files = .ok root) :
    root.named "Environment" = (settings root).map Setting.environment := by
  rw [named_environment_eq h, settings_eq h, List.map_map]
  rfl

theorem active_environments (isSet : String → Bool) (root : Element) :
    ((root.named "Component").filter (isActive isSet)).flatMap (·.named "Environment") =
      ((settings root).filter fun x ↦ isActive isSet x.component).map Setting.environment := by
  rw [settings]
  induction root.named "Component" with
  | nil => rfl
  | cons c cs ih =>
      rw [List.flatMap_cons, List.filter_append, List.map_append, ← ih, List.filter_cons]
      cases hc : isActive isSet c <;> simp [hc, List.filter_map, Function.comp_def]

/-! ## Variables that are declared for both scopes -/

/-- The two settings of each variable, numbered on from a number. -/
def settingsFrom (package : Guid) : Nat → List EnvironmentVariable →
    List (EnvironmentVariable × Setting)
  | _, [] => []
  | n, v :: declared =>
    (v, setting package v.forMachine n) :: (v, setting package v.forUser (n + 1)) ::
      settingsFrom package (n + 2) declared

theorem zip_settings (package : Guid) (n : Nat) (declared : List EnvironmentVariable) :
    (doubled declared).zip (((expandAll declared).zipIdx n).map fun (v, index) ↦
      setting package v index) = settingsFrom package n declared := by
  induction declared generalizing n with
  | nil => rfl
  | cons v declared ih =>
      rw [settingsFrom, ← ih (n + 2)]
      rfl

theorem assigned_eq (h : element p files = .ok root) (hdeclared : p.environment = expandAll declared) :
    assigned declared root = settingsFrom p.guid 1 declared := by
  rw [assigned, settings_eq h, numberedVariables, hdeclared, zip_settings]

theorem length_expandAll (declared : List EnvironmentVariable) :
    (expandAll declared).length = (doubled declared).length := by
  induction declared with
  | nil => rfl
  | cons v declared ih => simp [ih]

theorem length_settings (h : element p files = .ok root)
    (hdeclared : p.environment = expandAll declared) :
    (settings root).length = (doubled declared).length := by
  rw [settings_eq h, List.length_map, numberedVariables, List.length_zipIdx, hdeclared,
    length_expandAll]

theorem map_snd_assigned (h : element p files = .ok root)
    (hdeclared : p.environment = expandAll declared) :
    (assigned declared root).map Prod.snd = settings root :=
  List.map_snd_zip (Nat.le_of_eq (length_settings h hdeclared))

theorem isActive_variableComponent (isSet : String → Bool) (v : EnvironmentVariable) (n : Nat) :
    isActive isSet (variableComponent package v n) =
      (given v.condition).all fun condition ↦ Condition.holds isSet condition == some true := by
  cases h : given v.condition <;>
    simp [isActive, variableComponent, conditionElements, h, variableElement]

@[simp] theorem isActive_forMachine (isSet : String → Bool) (v : EnvironmentVariable) (n : Nat) :
    isActive isSet (setting package v.forMachine n).component = isSet machineCondition := by
  have hgiven : given v.forMachine.condition = some machineCondition := given_some (by decide)
  rw [setting, isActive_variableComponent, hgiven]
  cases h : isSet machineCondition <;> simp [h]

@[simp] theorem isActive_forUser (isSet : String → Bool) (v : EnvironmentVariable) (n : Nat) :
    isActive isSet (setting package v.forUser n).component = !isSet machineCondition := by
  have hgiven : given v.forUser.condition = some userCondition := given_some (by decide)
  rw [setting, isActive_variableComponent, hgiven]
  cases h : isSet machineCondition <;> simp [h]

theorem sets_forMachine (v : EnvironmentVariable) (n : Nat) :
    Sets true v (setting package v.forMachine n).environment :=
  sets_variableElement (variableId v.forMachine n) v.forMachine

theorem sets_forUser (v : EnvironmentVariable) (n : Nat) :
    Sets false v (setting package v.forUser n).environment :=
  sets_variableElement (variableId v.forUser n) v.forUser

/-- In each scope one of the two settings of a variable is left. -/
theorem active_settingsFrom (package : Guid) (isSet : String → Bool) (n : Nat)
    (declared : List EnvironmentVariable) :
    List.Forall₂ (fun v x ↦ x.1 = v ∧ Sets (isSet machineCondition) v x.2.environment) declared
      ((settingsFrom package n declared).filter fun x ↦ isActive isSet x.2.component) := by
  induction declared generalizing n with
  | nil => exact .nil
  | cons v declared ih =>
      have hrest := ih (n + 2)
      rw [settingsFrom, List.filter_cons, List.filter_cons, isActive_forMachine, isActive_forUser]
      -- the two conditions exclude each other, so the filter leaves one of the two
      cases hscope : isSet machineCondition with
      | true =>
          rw [hscope] at hrest
          exact .cons ⟨rfl, sets_forMachine v n⟩ hrest
      | false =>
          rw [hscope] at hrest
          exact .cons ⟨rfl, sets_forUser v (n + 1)⟩ hrest

/-- Both settings of a variable belong to its feature. -/
theorem members_expandAll (package : Guid) (owner : Option FeatureRef) (n : Nat)
    (declared : List EnvironmentVariable) :
    ((((expandAll declared).zipIdx n).map fun (v, index) ↦
        Membership.mk v.feature (componentId (variableId v index))).filter (·.feature = owner)).map
      (fun m ↦ some m.component) =
    ((settingsFrom package n declared).filter (·.1.feature = owner)).map
      fun x ↦ x.2.component.attribute? "Id" := by
  induction declared generalizing n with
  | nil => rfl
  | cons v declared ih =>
      have hrest := ih (n + 2)
      rw [expandAll_cons, settingsFrom, List.zipIdx_cons, List.zipIdx_cons]
      by_cases howner : v.feature = owner
      · simp only [List.map_cons, List.filter_cons, forMachine, forUser, howner, decide_true, if_true]
        rw [hrest]
        rfl
      · simp only [List.map_cons, List.filter_cons, forMachine, forUser, howner, decide_false]
        exact hrest

theorem features_expandAll (n : Nat) (declared : List EnvironmentVariable) :
    (((expandAll declared).zipIdx n).map fun (v, index) ↦
        Membership.mk v.feature (componentId (variableId v index))).map Membership.feature =
      (doubled declared).map EnvironmentVariable.feature := by
  induction declared generalizing n with
  | nil => rfl
  | cons v declared ih =>
      rw [doubled_cons, List.map_cons, List.map_cons, ← ih (n + 2)]
      rfl

/-! ## Once in each scope -/

/-- What a document has to do with the variables that were declared. -/
structure SetsInEachScope (p : Package) (declared : List EnvironmentVariable) (root : Element) :
    Prop where
  /-- There are two settings for each variable. -/
  length_eq : (root.named "Environment").length = 2 * declared.length
  /-- Nothing is set but what is assigned to a variable. -/
  settings_eq : (assigned declared root).map (·.2.environment) = root.named "Environment"
  /-- Whatever is set for an installation, the components that are active hold one setting for each
  variable, the one for its scope. -/
  active_eq : ∀ isSet : String → Bool, ∃ left,
    left = (assigned declared root).filter (fun x ↦ isActive isSet x.2.component) ∧
    ((root.named "Component").filter (isActive isSet)).flatMap (·.named "Environment") =
      left.map (·.2.environment) ∧
    List.Forall₂ (fun v x ↦ x.1 = v ∧ Sets (isSet "ALLUSERS") v x.2.environment) declared left
  /-- Both settings of a variable are installed with its feature. -/
  owned : ∃ owners,
    AreFirsts owners
      (p.placedFiles.map PlacedFile.feature ++ (doubled declared).map EnvironmentVariable.feature) ∧
    List.Forall₂ (Owns p (assigned declared root)) owners (root.named "Feature")

theorem featureAttributes_eq (f : Feature) : featureAttributes f =
    Attributes.update
      ([("Id", identifier f.name), ("Title", f.name), ("Level", if f.enabled then "1" else "2"),
        ("Absent", if f.allowChange then "allow" else "disallow")] ++
        if f.description = "" then [] else [("Description", f.description)]) f.attributes := by
  have hlevel : toString f.level = if f.enabled then "1" else "2" := by
    rw [Feature.level]
    cases f.enabled <;> rfl
  rw [featureAttributes, hlevel]
  rfl

theorem owns_featureElement (hdeclared : p.environment = expandAll declared)
    (owner : Option FeatureRef) :
    Owns p (settingsFrom p.guid 1 declared) owner
      (featureElement p owner
        (((memberships p).filter fun m ↦ m.feature = owner).map Membership.component)) where
  attributes_eq := ⟨owner.elim p.defaultFeature p.feature, rfl, featureAttributes_eq _⟩
  references_eq := by
    have hrefs (ids : List String) :
        ((featureElement p owner ids).named "ComponentRef").map (·.attribute? "Id") =
          ids.map some := by
      simp [named_featureElement, Function.comp_def, attribute?, leaf, attributes, Attributes.get?]
    have hfiles : ((p.placedFiles.map PlacedFile.membership).filter fun m ↦ m.feature = owner).map
        (fun m ↦ some m.component) =
        (p.placedFiles.filter (·.feature = owner)).map fun f ↦ some f.componentId := by
      rw [List.filter_map, List.map_map]
      rfl
    rw [hrefs, List.map_map, memberships, List.filter_append, List.map_append,
      ← members_expandAll p.guid owner 1 declared, ← hdeclared]
    exact congrArg (· ++ _) hfiles

theorem owners_featureElements (h : element p files = .ok root)
    (hdeclared : p.environment = expandAll declared) : ∃ owners,
    AreFirsts owners
      (p.placedFiles.map PlacedFile.feature ++ (doubled declared).map EnvironmentVariable.feature) ∧
    List.Forall₂ (Owns p (assigned declared root)) owners (root.named "Feature") := by
  have hassigned := assigned_eq h hdeclared
  obtain ⟨above, license, -, hmirrors, habove, hlicense, rfl⟩ := element_eq_ok h
  have hfeatures : (memberships p).map Membership.feature =
      p.placedFiles.map PlacedFile.feature ++
        (doubled declared).map EnvironmentVariable.feature := by
    rw [memberships, List.map_append, List.map_map, ← features_expandAll 1 declared, ← hdeclared]
    rfl
  refine ⟨firsts ((memberships p).map Membership.feature), ?_, ?_⟩
  · rw [hfeatures]
    exact areFirsts_firsts _
  rw [hassigned, named_feature_name "Feature" hmirrors habove hlicense (by decide),
    namedAmong_feature_featureElements, featureElements, byFeature_eq, heaped, List.map_map,
    List.forall₂_map_right_iff, List.forall₂_same]
  exact fun owner _ ↦ owns_featureElement hdeclared owner

/-- A package whose variables are those that were declared, each one for both scopes, sets every one
of them once in each scope. Declaring for both scopes goes variable by variable, and does not
change what has been so declared. -/
theorem variables_set_in_each_scope (h : element p files = .ok root)
    (hdeclared : p.environment = expandAll declared) :
    SetsInEachScope p declared root ∧
    (∀ vs ws, expandAll (vs ++ ws) = expandAll vs ++ expandAll ws) ∧
    ∀ v : EnvironmentVariable, ∀ w ∈ v.expand, w.expand = v.expand := by
  have hall := map_snd_assigned h hdeclared
  refine ⟨⟨?_, ?_, fun isSet ↦ ⟨_, rfl, ?_, ?_⟩, ?_⟩, expandAll_append, fun v w hw ↦
    expand_of_mem_expand hw⟩
  · rw [named_environment h, List.length_map, length_settings h hdeclared, length_doubled]
  · rw [named_environment h, ← hall, List.map_map]
    rfl
  · rw [active_environments, ← hall, List.filter_map, List.map_map]
    rfl
  · rw [assigned_eq h hdeclared]
    exact active_settingsFrom p.guid isSet 1 declared
  · exact owners_featureElements h hdeclared

/-- Two variables of one name, the second one with a feature. The first one was declared for the
machine alone and under a condition of its own. -/
def pathVariables : List EnvironmentVariable :=
  [{ feature := none, name := "PATH", value := "a", system := true, condition := some "1" },
   { feature := some 0, name := "PATH", value := "b", part := .last }]

/-- A package whose variables stand on either side of its directory. -/
def pathPackage : Package where
  name := "Tool"
  guid := Product.upgradeGuid
  version := ⟨0, [1], none, none, none, []⟩
  features := [{ name := "Paths" }]
  entries := ((expandAll pathVariables).take 1).map .environment ++
    .directory "tool" [.file ⟨"tool.exe", some 0, none⟩] none none ::
      ((expandAll pathVariables).drop 1).map .environment

theorem pathPackage_set_in_each_scope : ∃ root,
    element pathPackage (.unchecked .current) = .ok root ∧
    pathPackage.environment = expandAll pathVariables ∧
    SetsInEachScope pathPackage pathVariables root := by
  have h : element pathPackage (.unchecked .current) = .ok _ := rfl
  have hdeclared : pathPackage.environment = expandAll pathVariables := rfl
  exact ⟨_, h, hdeclared, (variables_set_in_each_scope h hdeclared).1⟩

end Source

end WixAuthoring
