import WixAuthoring.Proofs.Sorting
import WixAuthoring.Proofs.Texts

namespace WixAuthoring

/-!
# The strings of a package

A document can hold a package whose strings are texts, provided that the attributes it adds have
plain names and that no condition holds a carriage return, which a reader would take for a line
end.
-/

open Xml

namespace Entry

mutual

def strings : Entry → List String
  | .property p => [p.name, p.value]
  | .file f => f.source :: f.name.toList
  | .directory name entries _ id => name :: id.toList ++ allStrings entries
  | .environment v => v.name :: v.value :: v.condition.toList
  | .setProperty s => s.name :: s.value :: s.sequence :: s.after :: s.condition.toList
  | .customAction a =>
    [a.id, a.dllEntry, a.after, a.condition, a.onReturn, a.binaryKey, a.execute]
  | .feature _ => []
  | .scalar _ => []

def allStrings : List Entry → List String
  | [] => []
  | e :: rest => e.strings ++ allStrings rest

end

theorem allStrings_eq_flatMap (es : List Entry) : allStrings es = es.flatMap strings := by
  induction es with
  | nil => rfl
  | cons e rest ih => rw [allStrings, ih, List.flatMap_cons]

end Entry

def Feature.strings (f : Feature) : List String :=
  f.name :: f.description :: f.attributes.map Prod.snd

def MajorUpgrade.strings (u : MajorUpgrade) : List String := [u.schedule, u.downgradeErrorMessage]

namespace Package

/-- The strings that a document shows, but for the version. -/
def strings (p : Package) : List String :=
  [p.name, p.manufacturer, p.urlInfoAbout, p.platform] ++ p.ui.toList ++ p.licenseFile.toList ++
    p.packageAttributes.map Prod.snd ++ p.majorUpgrade.toList.flatMap MajorUpgrade.strings ++
    p.features.flatMap Feature.strings ++ Entry.allStrings p.entries

def conditions (p : Package) : List String :=
  p.environment.flatMap (·.condition.toList) ++
    (p.entries.filterMap Entry.setProperty?).flatMap (·.condition.toList) ++
    (p.entries.filterMap Entry.customAction?).map CustomAction.condition

/-- The names of the attributes that a package adds to elements. -/
def attributeNames (p : Package) : List String :=
  p.packageAttributes.map Prod.fst ++ p.features.flatMap (·.attributes.map Prod.fst)

end Package

/-- Holds of a name that is in no namespace. -/
def isLocalName (name : String) : Bool := isName name.toList && !name.toList.contains ':'

/-- Holds of the name of an attribute that is in no namespace and declares none. -/
def isAttributeName (name : String) : Bool := isLocalName name && name ≠ "xmlns"

structure Package.IsEncodable (p : Package) : Prop where
  strings : ∀ s ∈ p.strings, IsText s
  conditions : ∀ s ∈ p.conditions, '\r' ∉ s.toList
  names : ∀ n ∈ p.attributeNames, isAttributeName n = true

/-! ## The strings of the parts of a package -/

theorem Entry.allStrings_subset {es fs : List Entry} (h : ∀ e ∈ es, e ∈ fs) :
    ∀ s ∈ allStrings es, s ∈ allStrings fs := by
  intro s hs
  rw [allStrings_eq_flatMap, List.mem_flatMap] at hs ⊢
  obtain ⟨e, he, hs⟩ := hs
  exact ⟨e, h e he, hs⟩

theorem Package.mem_entries_of_mem_filterMap {α : Type} {select : Entry → Option α}
    {make : α → Entry} (hselect : ∀ e a, select e = some a → e = make a) {p : Package} {a : α}
    (ha : a ∈ p.entries.filterMap select) : make a ∈ p.entries := by
  obtain ⟨e, he, hea⟩ := List.mem_filterMap.1 ha
  rwa [← hselect e a hea]

namespace Package.IsEncodable

variable {p : Package}

theorem entries (h : p.IsEncodable) : ∀ s ∈ Entry.allStrings p.entries, IsText s :=
  fun s hs ↦ h.strings s (List.mem_append_right _ hs)

theorem entry (h : p.IsEncodable) {e : Entry} (he : e ∈ p.entries) : ∀ s ∈ e.strings, IsText s := by
  intro s hs
  apply h.entries s
  rw [Entry.allStrings_eq_flatMap, List.mem_flatMap]
  exact ⟨e, he, hs⟩

theorem property (h : p.IsEncodable) {x : Property} (hx : x ∈ p.entries.filterMap Entry.property?) :
    IsText x.name ∧ IsText x.value := by
  have hmem : Entry.property x ∈ p.entries :=
    mem_entries_of_mem_filterMap (fun e a he ↦ by cases e <;> cases he; rfl) hx
  simpa [Entry.strings] using h.entry hmem

theorem environmentVariable (h : p.IsEncodable) {v : EnvironmentVariable} (hv : v ∈ p.environment) :
    (∀ s ∈ Entry.strings (.environment v), IsText s) ∧
      ∀ s ∈ v.condition.toList, '\r' ∉ s.toList := by
  have hmem : Entry.environment v ∈ p.entries :=
    mem_entries_of_mem_filterMap (fun e a he ↦ by cases e <;> cases he; rfl) hv
  refine ⟨h.entry hmem, fun s hs ↦ h.conditions s ?_⟩
  exact List.mem_append_left _ (List.mem_append_left _ (List.mem_flatMap.2 ⟨v, hv, hs⟩))

theorem setProperty (h : p.IsEncodable) {x : SetProperty}
    (hx : x ∈ p.entries.filterMap Entry.setProperty?) :
    (∀ s ∈ Entry.strings (.setProperty x), IsText s) ∧
      ∀ s ∈ x.condition.toList, '\r' ∉ s.toList := by
  have hmem : Entry.setProperty x ∈ p.entries :=
    mem_entries_of_mem_filterMap (fun e a he ↦ by cases e <;> cases he; rfl) hx
  refine ⟨h.entry hmem, fun s hs ↦ h.conditions s ?_⟩
  exact List.mem_append_left _ (List.mem_append_right _ (List.mem_flatMap.2 ⟨x, hx, hs⟩))

theorem customAction (h : p.IsEncodable) {x : CustomAction}
    (hx : x ∈ p.entries.filterMap Entry.customAction?) :
    (∀ s ∈ Entry.strings (.customAction x), IsText s) ∧ '\r' ∉ x.condition.toList := by
  have hmem : Entry.customAction x ∈ p.entries :=
    mem_entries_of_mem_filterMap (fun e a he ↦ by cases e <;> cases he; rfl) hx
  exact ⟨h.entry hmem, h.conditions _ (List.mem_append_right _ (List.mem_map_of_mem hx))⟩

theorem feature (h : p.IsEncodable) (f : FeatureRef) :
    (∀ s ∈ (p.feature f).strings, IsText s) ∧
      ∀ n ∈ (p.feature f).attributes.map Prod.fst, isAttributeName n = true := by
  rw [Package.feature, List.getD_eq_getElem?_getD]
  cases hf : p.features[f]? with
  | none => simp [Feature.strings]
  | some feature =>
      have hmem := List.mem_of_getElem? hf
      constructor
      · intro s hs
        apply h.strings s
        exact List.mem_append_left _
          (List.mem_append_right _ (List.mem_flatMap.2 ⟨feature, hmem, hs⟩))
      · intro n hn
        exact h.names n (List.mem_append_right _ (List.mem_flatMap.2 ⟨feature, hmem, hn⟩))

end Package.IsEncodable

end WixAuthoring
