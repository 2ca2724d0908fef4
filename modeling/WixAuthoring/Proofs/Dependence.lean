import WixAuthoring.Product
import WixAuthoring.Proofs.Document

namespace WixAuthoring

/-!
# What a document depends on

Of the entries of a package a document shows those of each kind in their order. Where entries of
different kinds stand among each other makes no difference to it, nor to how it fails.
-/

namespace Entry

/-- Holds of lists with the same entries of each kind in the same order. -/
structure SameKinds (es fs : List Entry) : Prop where
  property : es.filterMap property? = fs.filterMap property?
  directory : es.filter isDirectory = fs.filter isDirectory
  environment : es.filterMap environment? = fs.filterMap environment?
  setProperty : es.filterMap setProperty? = fs.filterMap setProperty?
  customAction : es.filterMap customAction? = fs.filterMap customAction?

end Entry

namespace Package

def withEntries (p : Package) (es : List Entry) : Package := { p with entries := es }

def withRelease (p : Package) (version : Version) (token : Option String) : Package :=
  { p with version := version, versionToken := token }

end Package

namespace Source

open Xml

variable {p q : Package} {files : FileSource}

mutual

/-- The tree depends on the GUID and on the features, as far as they are shown when it fails. -/
theorem entry_congr (hguid : p.guid = q.guid) (hfeatures : p.features = q.features)
    (parentId : String) (inherited : Option FeatureRef) (e : Entry) :
    entry p files parentId inherited e = entry q files parentId inherited e := by
  cases e with
  | file f => rw [entry, entry, hguid]
  | directory name inner own id => rw [entry, entry, entries_congr hguid hfeatures _ _ inner]
  | property | environment | setProperty | customAction | feature | scalar =>
      -- such an entry is refused, and the refusal shows it with its feature
      have hfeature : p.feature = q.feature := by
        funext f
        rw [Package.feature, Package.feature, hfeatures]
      simp [entry, hfeature]

theorem entries_congr (hguid : p.guid = q.guid) (hfeatures : p.features = q.features)
    (parentId : String) (inherited : Option FeatureRef) (es : List Entry) :
    entries p files parentId inherited es = entries q files parentId inherited es := by
  cases es with
  | nil => rw [entries, entries]
  | cons e rest =>
      rw [entries, entries, entry_congr hguid hfeatures parentId inherited e,
        entries_congr hguid hfeatures parentId inherited rest]

end

theorem checkEntries_eq_ok_iff :
    checkEntries p = .ok () ↔ ∀ e ∈ p.entries, e.isTopLevel = true := by
  have hfind : p.entries.find? (fun e ↦ !e.isTopLevel) = none ↔
      ∀ e ∈ p.entries, e.isTopLevel = true := by
    simp [List.find?_eq_none]
  rw [← hfind, checkEntries]
  cases p.entries.find? fun e ↦ !e.isTopLevel with
  | none => simp
  | some e => simp

theorem withVariables_withEntries {es : List Entry}
    (h : es.filterMap Entry.environment? = p.environment) (tree : List Element) :
    withVariables (p.withEntries es) tree = withVariables p tree := by
  have henvironment : (p.withEntries es).environment = p.environment := h
  have hcomponents : variableComponents (p.withEntries es) = variableComponents p := by
    rw [variableComponents, numberedVariables, henvironment]
    rfl
  cases tree with
  | nil => rw [withVariables, withVariables, henvironment]
  | cons first rest => rw [withVariables, withVariables, hcomponents]

theorem variableMembers_withEntries {es : List Entry}
    (h : es.filterMap Entry.environment? = p.environment) :
    variableMembers (p.withEntries es) = variableMembers p := by
  have henvironment : (p.withEntries es).environment = p.environment := h
  rw [variableMembers, numberedVariables, henvironment]
  rfl

theorem propertyElements_withEntries {es : List Entry}
    (h : es.filterMap Entry.property? = p.entries.filterMap Entry.property?) :
    propertyElements (p.withEntries es) = propertyElements p := by
  rw [propertyElements, propertyElements, ← h]
  rfl

theorem productChildren_withEntries {es : List Entry} (h : Entry.SameKinds es p.entries)
    (tree license : List Element) (members : List Membership) :
    productChildren (p.withEntries es) tree license members =
      productChildren p tree license members := by
  have hset : (p.withEntries es).entries.filterMap Entry.setProperty? =
      p.entries.filterMap Entry.setProperty? := h.setProperty
  have hactions : (p.withEntries es).entries.filterMap Entry.customAction? =
      p.entries.filterMap Entry.customAction? := h.customAction
  rw [productChildren, productChildren, leadingElements, trailingElements, hset, hactions,
    propertyElements_withEntries h.property, variableMembers_withEntries h.environment]
  rfl

theorem element_withEntries {es : List Entry} (hp : ∀ e ∈ p.entries, e.isTopLevel = true)
    (hes : ∀ e ∈ es, e.isTopLevel = true) (h : Entry.SameKinds es p.entries) :
    element (p.withEntries es) files = element p files := by
  have hcheck : checkEntries (p.withEntries es) = checkEntries p :=
    (checkEntries_eq_ok_iff.2 hes).trans (checkEntries_eq_ok_iff.2 hp).symm
  have hdirectories : directories (p.withEntries es) = directories p := h.directory
  have htree : entries (p.withEntries es) files "INSTALLDIR" none (directories p) =
      entries p files "INSTALLDIR" none (directories p) :=
    entries_congr (p := p.withEntries es) (q := p) rfl rfl ..
  have hlicense : licenseElements (p.withEntries es) files = licenseElements p files := rfl
  have hattributes : productAttributes (p.withEntries es) = productAttributes p := rfl
  simp only [element_eq, hcheck, hdirectories, htree, withVariables_withEntries h.environment,
    hlicense, hattributes, productChildren_withEntries h]

/-- The text of a document, or its failure, does not depend on how entries of different kinds are
mixed. -/
theorem text_of_sameKinds {es : List Entry} (hp : ∀ e ∈ p.entries, e.isTopLevel = true)
    (hes : ∀ e ∈ es, e.isTopLevel = true) (h : Entry.SameKinds es p.entries) (files : FileSource) :
    text (p.withEntries es) files = text p files := by
  rw [text, text, element_withEntries hp hes h]

/-- The entries of a list kind by kind. -/
def byKind (es : List Entry) : List Entry :=
  (es.filterMap Entry.customAction?).map .customAction ++
    (es.filterMap Entry.environment?).map .environment ++
    (es.filterMap Entry.setProperty?).map .setProperty ++ es.filter Entry.isDirectory ++
    (es.filterMap Entry.property?).map .property

theorem product_text_byKind :
    (byKind Product.entries).map Entry.isDirectory ≠ Product.entries.map Entry.isDirectory ∧
    text ((Product.package ⟨0, [1, 2, 3], none, none, none, []⟩ none).withEntries
        (byKind Product.entries)) (.unchecked .current) =
      text (Product.package ⟨0, [1, 2, 3], none, none, none, []⟩ none) (.unchecked .current) := by
  have hkinds : Entry.SameKinds (byKind Product.entries) Product.entries :=
    ⟨rfl, rfl, rfl, rfl, rfl⟩
  have htop : ∀ e ∈ Product.entries, e.isTopLevel = true := by decide
  have htop' : ∀ e ∈ byKind Product.entries, e.isTopLevel = true := by decide
  exact ⟨by decide, text_of_sameKinds htop htop' hkinds _⟩

/-! ## Releases -/

/-- An attribute of the product, blank if it tells one release from another. -/
def blankRelease (entry : String × String) : String × String :=
  (entry.1, if entry.1 = "Id" ∨ entry.1 = "Version" then "" else entry.2)

def blankProduct : Element → Element
  | .node name attributes text children =>
    .node name (if name = "Product" then attributes.map blankRelease else attributes) text children

/-- A document in which the identifier and the version of the product are left blank. -/
def unreleased : Element → Element
  | .node name attributes text children => .node name attributes text (children.map blankProduct)

theorem map_blankRelease_productAttributes (version : Version) (token : Option String) :
    (productAttributes (p.withRelease version token)).map blankRelease =
      (productAttributes p).map blankRelease := by
  simp [productAttributes, blankRelease, Package.withRelease, Package.upgradeCode]
  rfl

theorem unreleased_product (version : Version) (token : Option String) (children : List Element) :
    unreleased (.branch "Wix" [("xmlns", xmlns)]
        [.branch "Product" (productAttributes (p.withRelease version token)) children]) =
      unreleased (.branch "Wix" [("xmlns", xmlns)]
        [.branch "Product" (productAttributes p) children]) := by
  simp [unreleased, blankProduct, Element.branch, map_blankRelease_productAttributes]

theorem map_bind {α β γ : Type} (f : β → γ) (x : Except Failure α) (g : α → Except Failure β) :
    (x >>= g).map f = x >>= fun a ↦ (g a).map f := by
  cases x <;> rfl

theorem map_ok {α β : Type} (f : α → β) (a : α) :
    (Except.ok a : Except Failure α).map f = .ok (f a) := rfl

/-- Releases of a package have one document but for what tells them apart, or fail alike. -/
theorem unreleased_withRelease (version : Version) (token : Option String) (files : FileSource) :
    (element (p.withRelease version token) files).map unreleased =
      (element p files).map unreleased := by
  have hcheck : checkEntries (p.withRelease version token) = checkEntries p := rfl
  have htree : entries (p.withRelease version token) files "INSTALLDIR" none
      (directories (p.withRelease version token)) = entries p files "INSTALLDIR" none (directories p) :=
    entries_congr (p := p.withRelease version token) (q := p) rfl rfl ..
  have hvariables (tree : List Element) :
      withVariables (p.withRelease version token) tree = withVariables p tree := by
    cases tree <;> rfl
  have hlicense : licenseElements (p.withRelease version token) files = licenseElements p files := rfl
  have hchildren (tree license : List Element) (members : List Membership) :
      productChildren (p.withRelease version token) tree license members =
        productChildren p tree license members := rfl
  simp only [element_eq, map_bind, hcheck, htree, hvariables, hlicense, hchildren, map_ok,
    unreleased_product]

end Source

end WixAuthoring
