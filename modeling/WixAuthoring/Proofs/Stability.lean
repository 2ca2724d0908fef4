import WixAuthoring.Proofs.Dependence
import WixAuthoring.Proofs.Location
import WixAuthoring.Proofs.Scopes

namespace WixAuthoring

/-!
# Identities stay

What is installed is recognised by its identifiers and its GUID when a package is released again.
They come from the GUID of the package, the directories around a file and its name, and for a
variable from its name, its scope and its number. Nothing else of a package reaches them.
-/

/-! ## Changing what lies in a directory -/

namespace Entry

open PlacedFile

/-- Holds when the entries at one place, at the top or within a directory, are changed as `R` says. -/
inductive Edited (R : List Entry → List Entry → Prop) : List Entry → List Entry → Prop
  | here {es es' : List Entry} (h : R es es') : Edited R es es'
  | inside (before after : List Entry) (name : String) (own : Option FeatureRef)
      (id : Option String) {inner inner' : List Entry} (h : Edited R inner inner') :
      Edited R (before ++ .directory name inner own id :: after)
        (before ++ .directory name inner' own id :: after)

theorem allPlaced_eq_flatMap (above : List Folder) (es : List Entry) :
    allPlaced above es = es.flatMap (placed above) := by
  induction es with
  | nil => rw [allPlaced_nil, List.flatMap_nil]
  | cons e es ih => rw [allPlaced, ih, List.flatMap_cons]

/-- The keys of the files among some entries. -/
def keys (above : List Folder) (es : List Entry) : List (List (String × String) × String) :=
  (allPlaced above es).map key

theorem keys_eq_flatMap (above : List Folder) (es : List Entry) :
    keys above es = es.flatMap fun e ↦ (e.placed above).map key := by
  rw [keys, allPlaced_eq_flatMap, List.map_flatMap]

@[simp] theorem keys_append (above : List Folder) (es fs : List Entry) :
    keys above (es ++ fs) = keys above es ++ keys above fs := by
  rw [keys_eq_flatMap, keys_eq_flatMap, keys_eq_flatMap, List.flatMap_append]

theorem keys_directory (above : List Folder) (name : String) (inner rest : List Entry)
    (own : Option FeatureRef) (id : Option String) :
    keys above (.directory name inner own id :: rest) =
      keys (above ++ [⟨name, id, own⟩]) inner ++ keys above rest := by
  rw [keys, allPlaced_directory, List.map_append, keys, keys]

/-- An entry that belongs to no feature, if it is a file. -/
def withoutFeature : Entry → Entry
  | .file f => .file { f with feature := none }
  | e => e

theorem keys_map_withoutFeature (above : List Folder) (es : List Entry) :
    keys above (es.map withoutFeature) = keys above es := by
  rw [keys_eq_flatMap, keys_eq_flatMap, List.flatMap_map]
  refine List.flatMap_congr fun e _ ↦ ?_
  cases e with
  | file f => rw [withoutFeature, placed, placed]; rfl
  | directory | property | environment | setProperty | customAction | feature | scalar => rfl

/-- What holds of the keys at one place holds of all keys, if it holds with others on either side. -/
theorem Edited.keys {R : List Entry → List Entry → Prop}
    {S : List (List (String × String) × String) → List (List (String × String) × String) → Prop}
    (hcontext : ∀ x y k l, S k l → S (x ++ k ++ y) (x ++ l ++ y))
    (hR : ∀ above es es', R es es' → S (Entry.keys above es) (Entry.keys above es'))
    {es es' : List Entry} (h : Edited R es es') (above : List Folder) :
    S (Entry.keys above es) (Entry.keys above es') := by
  induction h generalizing above with
  | here h => exact hR above _ _ h
  | inside before after name own id _ ih =>
      rw [keys_append, keys_append, keys_directory, keys_directory, ← List.append_assoc,
        ← List.append_assoc]
      exact hcontext _ _ _ _ (ih _)

theorem flatMap_sublist {α β : Type} (f : α → List β) {l l' : List α} (h : l.Sublist l') :
    (l.flatMap f).Sublist (l'.flatMap f) := by
  induction h with
  | slnil => exact .slnil
  | cons a _ ih => exact ih.trans (List.sublist_append_right _ _)
  | cons_cons a _ ih => exact (List.Sublist.refl (f a)).append ih

theorem keys_sublist {es es' : List Entry} (h : Edited List.Sublist es es') :
    (keys [] es).Sublist (keys [] es') := by
  refine h.keys (S := List.Sublist) ?_ ?_ []
  · intro x y k l hkl
    exact ((List.Sublist.refl x).append hkl).append (List.Sublist.refl y)
  · intro above es es' hes
    rw [keys_eq_flatMap, keys_eq_flatMap]
    exact flatMap_sublist _ hes

theorem keys_perm {es es' : List Entry} (h : Edited List.Perm es es') :
    (keys [] es).Perm (keys [] es') := by
  refine h.keys (S := List.Perm) ?_ ?_ []
  · intro x y k l hkl
    exact (hkl.append_left x).append_right y
  · intro above es es' hes
    rw [keys_eq_flatMap, keys_eq_flatMap]
    exact hes.flatMap_right _

/-- Holds of lists that differ in the features of files only. -/
def SameButFeatures (es es' : List Entry) : Prop := es'.map withoutFeature = es.map withoutFeature

theorem keys_eq_of_sameButFeatures {es es' : List Entry} (h : Edited SameButFeatures es es') :
    keys [] es' = keys [] es := by
  refine h.keys (S := fun k l ↦ l = k) ?_ ?_ []
  · intro x y k l hkl
    rw [hkl]
  · intro above es es' hes
    rw [← keys_map_withoutFeature above es', hes, keys_map_withoutFeature]

end Entry

namespace Source

open Xml Element

variable {p q : Package} {files files' : FileSource} {root root' : Element}

theorem allPlaced_filter_isDirectory {es : List Entry} (h : ∀ e ∈ es, e.isTopLevel = true) :
    Entry.allPlaced [] (es.filter Entry.isDirectory) = Entry.allPlaced [] es := by
  induction es with
  | nil => rfl
  | cons e es ih =>
      rw [List.forall_mem_cons] at h
      rw [Entry.allPlaced, ← ih h.2]
      cases e with
      | directory => rw [List.filter_cons_of_pos rfl, Entry.allPlaced]
      | file | feature | scalar => cases h.1
      | property | environment | setProperty | customAction => rfl

theorem locatedFiles_eq_map_keys (h : element p files = .ok root) :
    locatedFiles root = (Entry.keys [] p.entries).map (locate p.guid) := by
  obtain ⟨declared, license, hcheck, -⟩ := element_eq_ok h
  rw [locatedFiles_eq h, Package.placedFiles,
    allPlaced_filter_isDirectory (checkEntries_eq_ok_iff.1 hcheck), Entry.keys]

/-- What the settings of a document are recognised by, in order. -/
def settingIdentities (root : Element) : List Identity :=
  (settings root).map fun s ↦
    ⟨s.environment.attribute? "Name", s.environment.attribute? "Id",
      s.component.attribute? "Id", s.component.attribute? "Guid"⟩

theorem getElem?_settingIdentities (h : element p files = .ok root) {i : Nat}
    {v : EnvironmentVariable} (hv : p.environment[i]? = some v) :
    (settingIdentities root)[i]? = some (identified p.guid (variableId v (i + 1)) v.name) := by
  rw [settingIdentities, settings_eq h, List.getElem?_map, List.getElem?_map, numberedVariables,
    List.getElem?_zipIdx, hv, Nat.add_comm i 1]
  rfl

/-- What the documents of two packages with one GUID have in common. -/
structure KeepsIdentities (p q : Package) (root root' : Element) : Prop where
  /-- Files with one name in the same directories have one identity. -/
  files : ∀ f ∈ locatedFiles root, ∀ g ∈ locatedFiles root', f.chain = g.chain →
    f.identity.name = g.identity.name → f.identity = g.identity
  /-- Variables with one name, one scope and one number have one identity. -/
  environment : ∀ (i : Nat) (v w : EnvironmentVariable), p.environment[i]? = some v →
    q.environment[i]? = some w → v.name = w.name → v.system = w.system →
    ∃ identity, (settingIdentities root)[i]? = some identity ∧
      (settingIdentities root')[i]? = some identity
  /-- Files keep their identities when entries are put beside them. -/
  inserted : Entry.Edited List.Sublist p.entries q.entries →
    (locatedFiles root).Sublist (locatedFiles root')
  /-- Entries that stand beside each other may change places. -/
  reordered : Entry.Edited List.Perm p.entries q.entries →
    (locatedFiles root).Perm (locatedFiles root')
  /-- Files may be moved from feature to feature. -/
  moved : Entry.Edited Entry.SameButFeatures p.entries q.entries →
    locatedFiles root' = locatedFiles root

theorem keepsIdentities (h : element p files = .ok root) (h' : element q files' = .ok root')
    (hguid : p.guid = q.guid) : KeepsIdentities p q root root' where
  files f hf g hg hchain hname := by
    rw [locatedFiles_eq h] at hf
    rw [locatedFiles_eq h', ← hguid] at hg
    obtain ⟨⟨chain, name⟩, -, rfl⟩ := List.mem_map.1 hf
    obtain ⟨⟨chain', name'⟩, -, rfl⟩ := List.mem_map.1 hg
    obtain rfl : chain = chain' := hchain
    obtain rfl : name = name' := Option.some.inj hname
    rfl
  environment i v w hv hw hname hsystem := by
    refine ⟨_, getElem?_settingIdentities h hv, ?_⟩
    rw [getElem?_settingIdentities h' hw, hguid, variableId, variableId, hname, hsystem]
  inserted hedited := by
    rw [locatedFiles_eq_map_keys h, locatedFiles_eq_map_keys h', hguid]
    exact (Entry.keys_sublist hedited).map _
  reordered hedited := by
    rw [locatedFiles_eq_map_keys h, locatedFiles_eq_map_keys h', hguid]
    exact (Entry.keys_perm hedited).map _
  moved hedited := by
    rw [locatedFiles_eq_map_keys h, locatedFiles_eq_map_keys h', hguid,
      Entry.keys_eq_of_sameButFeatures hedited]

/-- Two packages with one GUID give the same identities to the same files and variables, wherever else
they differ. A document holds the files of its package in their directories. Two releases of a
package have the same document but for the identifier and the version of the product. -/
theorem identities_stable (h : element p files = .ok root) (h' : element q files' = .ok root')
    (hguid : p.guid = q.guid) :
    KeepsIdentities p q root root' ∧ KeepsIdentities q p root' root ∧
    ((locatedFiles root).map fun f ↦ (f.chain, f.identity.name)) =
      p.placedFiles.map (fun f ↦ (f.chain, some f.file.installName)) ∧
    (∀ f g : PlacedFile, (f.folders.map fun d ↦ (given d.id, d.name)) =
      (g.folders.map fun d ↦ (given d.id, d.name)) → f.chain = g.chain) ∧
    ∀ version token, ∃ released, element (p.withRelease version token) files = .ok released ∧
      unreleased released = unreleased root := by
  refine ⟨keepsIdentities h h' hguid, keepsIdentities h' h hguid.symm, ?_, fun f g ↦
    PlacedFile.chainFrom_congr, fun version token ↦ ?_⟩
  · rw [locatedFiles_eq h, List.map_map, List.map_map]
    rfl
  · have hreleased := unreleased_withRelease (p := p) version token files
    rw [h] at hreleased
    cases hroot : element (p.withRelease version token) files with
    | error e =>
        rw [hroot] at hreleased
        cases hreleased
    | ok released =>
        rw [hroot] at hreleased
        exact ⟨released, rfl, Except.ok.inj hreleased⟩

def firstProduct : Package := Product.package ⟨0, [1, 2, 3], none, none, none, []⟩ none

/-- A later product for another platform, with one file more in front of the others. -/
def laterProduct : Package :=
  { Product.package ⟨0, [2], none, none, none, []⟩ none with
    platform := "x86"
    entries := Product.entries.take 2 ++
      .directory Product.name (.file ⟨"README", none, none⟩ :: Product.tree) none
        (some Product.applicationFolder) :: Product.entries.drop 3 }

theorem product_identities_stable : ∃ root root',
    element firstProduct (.unchecked .current) = .ok root ∧
    element laterProduct (.unchecked (.parse "/later")) = .ok root' ∧
    firstProduct.guid = laterProduct.guid ∧
    (locatedFiles root).Sublist (locatedFiles root') := by
  have h : element firstProduct (.unchecked .current) = .ok _ := rfl
  have h' : element laterProduct (.unchecked (.parse "/later")) = .ok _ := rfl
  have hguid : firstProduct.guid = laterProduct.guid := rfl
  have hedited : Entry.Edited List.Sublist firstProduct.entries laterProduct.entries :=
    .inside (Product.entries.take 2) (Product.entries.drop 3) Product.name none
      (some Product.applicationFolder) (.here (List.sublist_cons_self _ _))
  exact ⟨_, _, h, h', hguid, (identities_stable h h' hguid).1.inserted hedited⟩

end Source

end WixAuthoring
