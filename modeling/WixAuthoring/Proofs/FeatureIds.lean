import WixAuthoring.Proofs.Features
import Mathlib.Data.List.Nodup

namespace WixAuthoring

/-!
# The identifiers of features

A document names a feature by an identifier that is drawn from its name. The default feature has the
name of the package, and nothing keeps another feature from having the same one.
-/

namespace Attributes

theorem get?_set_ne {name n : String} (h : name ≠ n) (value : String) (attributes : Attributes) :
    (set n value attributes).get? name = attributes.get? name := by
  induction attributes with
  | nil => simp [set, h]
  | cons entry attributes ih =>
      obtain ⟨k, v⟩ := entry
      rw [set]
      split
      · next hk => simp [hk, h]
      · rw [get?_cons, get?_cons, ih]

theorem get?_update_of_notMem {name : String} {base extra : Attributes}
    (h : name ∉ extra.map Prod.fst) : (update base extra).get? name = base.get? name := by
  induction extra generalizing base with
  | nil => rfl
  | cons entry extra ih =>
      obtain ⟨n, value⟩ := entry
      rw [List.map_cons, List.mem_cons, not_or] at h
      rw [update_cons, ih h.2, get?_set_ne h.1]

end Attributes

/-! ## The features that are given components -/

namespace Entry

variable {g : FeatureRef}

theorem mem_allMentions {es : List Entry} : g ∈ allMentions es ↔ ∃ e ∈ es, g ∈ e.mentions := by
  induction es with
  | nil => simp [allMentions]
  | cons e es ih => simp [allMentions, ih]

/-- The feature of a file is mentioned by the file or by a folder around it. -/
theorem mentioned_of_mem_allPlaced {above : List Folder} {es : List Entry} {f : PlacedFile}
    (hf : f ∈ allPlaced above es) (hg : f.feature = some g) :
    (∃ d ∈ above, d.feature = some g) ∨ g ∈ allMentions es := by
  match es with
  | [] => simp at hf
  | .file own :: rest =>
      rw [allPlaced_file, List.mem_cons] at hf
      rcases hf with rfl | hf
      · rcases Option.or_eq_some_iff.1 hg with hown | ⟨-, hnearest⟩
        · have hown : own.feature = some g := hown
          exact .inr (by simp [allMentions, mentions, hown])
        · obtain ⟨d, hd, hfeature⟩ := List.exists_of_findSome?_eq_some hnearest
          exact .inl ⟨d, List.mem_reverse.1 hd, hfeature⟩
      · exact (mentioned_of_mem_allPlaced hf hg).imp_right fun h ↦ by simp [allMentions, h]
  | .directory name inner own id :: rest =>
      rw [allPlaced_directory, List.mem_append] at hf
      rcases hf with hf | hf
      · rcases mentioned_of_mem_allPlaced hf hg with ⟨d, hd, hfeature⟩ | h
        · rcases List.mem_append.1 hd with hd | hd
          · exact .inl ⟨d, hd, hfeature⟩
          · obtain rfl := List.mem_singleton.1 hd
            have hfeature : own = some g := hfeature
            exact .inr (by simp [allMentions, mentions, hfeature])
        · exact .inr (by simp [allMentions, mentions, h])
      · exact (mentioned_of_mem_allPlaced hf hg).imp_right fun h ↦ by simp [allMentions, h]
  | .property _ :: rest | .environment _ :: rest | .setProperty _ :: rest
  | .customAction _ :: rest | .feature _ :: rest | .scalar _ :: rest =>
      have hf : f ∈ allPlaced above rest := by simpa [allPlaced, placed] using hf
      exact (mentioned_of_mem_allPlaced hf hg).imp_right fun h ↦ by simp [allMentions, h]

end Entry

namespace Source

open Xml Element

variable {p : Package} {files : FileSource} {root : Element}

/-- A feature that is given components is one that the package mentions. -/
theorem mem_mentionedFeatures {f : FeatureRef}
    (h : some f ∈ (memberships p).map Membership.feature) : f ∈ p.mentionedFeatures := by
  obtain ⟨m, hm, hfeature⟩ := List.mem_map.1 h
  rw [Package.mentionedFeatures, mem_firsts, Entry.mem_allMentions]
  rcases List.mem_append.1 hm with hm | hm
  · obtain ⟨placed, hplaced, rfl⟩ := List.mem_map.1 hm
    rcases Entry.mentioned_of_mem_allPlaced hplaced hfeature with ⟨d, hd, -⟩ | hmentioned
    · exact absurd hd List.not_mem_nil
    · obtain ⟨e, he, hf⟩ := Entry.mem_allMentions.1 hmentioned
      exact ⟨e, (List.mem_filter.1 he).1, hf⟩
  · obtain ⟨⟨v, index⟩, hv, rfl⟩ := List.mem_map.1 hm
    have hv : v ∈ p.environment := by
      rw [← List.zipIdx_map_fst 1 p.environment]
      exact List.mem_map.2 ⟨_, hv, rfl⟩
    obtain ⟨e, he, hvariable⟩ := List.mem_filterMap.1 hv
    refine ⟨e, he, ?_⟩
    cases e <;> simp_all [Entry.environment?, Entry.mentions]

/-- The feature that stands in a document for a feature that is given, or for none. -/
def ownerFeature (p : Package) (owner : Option FeatureRef) : Feature :=
  owner.elim p.defaultFeature p.feature

theorem get?_id_featureAttributes {f : Feature} (h : "Id" ∉ f.attributes.map Prod.fst) :
    (featureAttributes f).get? "Id" = some f.id := by
  rw [featureAttributes, Attributes.get?_update_of_notMem h]
  rfl

theorem feature_ids (h : element p files = .ok root)
    (hown : ∀ f ∈ p.mentionedFeatures, "Id" ∉ (p.feature f).attributes.map Prod.fst) :
    (root.named "Feature").map (·.attribute? "Id") =
      (firsts ((memberships p).map Membership.feature)).map fun owner ↦
        some (ownerFeature p owner).id := by
  obtain ⟨declared, license, -, hmirrors, hdeclared, hlicense, rfl⟩ := element_eq_ok h
  rw [named_feature_name "Feature" hmirrors hdeclared hlicense (by decide),
    namedAmong_feature_featureElements, featureElements, byFeature_eq, heaped, List.map_map, List.map_map]
  refine List.map_congr_left fun owner howner ↦ get?_id_featureAttributes ?_
  cases owner with
  | none => exact List.not_mem_nil
  | some f => exact hown f (mem_mentionedFeatures (mem_firsts.1 howner))

/-- Features that are given components have identifiers of their own, unless the default feature is
one of them and another one has an identifier like that of the package. -/
theorem feature_ids_distinct_iff (h : element p files = .ok root)
    (hids : ∀ f ∈ p.mentionedFeatures, ∀ g ∈ p.mentionedFeatures,
      (p.feature f).id = (p.feature g).id → f = g)
    (hown : ∀ f ∈ p.mentionedFeatures, "Id" ∉ (p.feature f).attributes.map Prod.fst) :
    ((root.named "Feature").map (·.attribute? "Id")).Nodup ↔
      ¬ ((∃ m ∈ memberships p, m.feature = none) ∧
        ∃ m ∈ memberships p, ∃ f, m.feature = some f ∧ (p.feature f).id = identifier p.name) := by
  have hmem {owner : Option FeatureRef} : owner ∈ firsts ((memberships p).map Membership.feature) ↔
      ∃ m ∈ memberships p, m.feature = owner := by
    rw [mem_firsts, List.mem_map]
  rw [feature_ids h hown, List.nodup_map_iff_inj_on (nodup_firsts _)]
  constructor
  · rintro hinjective ⟨hnone, m, hm, f, hf, hid⟩
    have heq := hinjective none (hmem.2 hnone) (some f) (hmem.2 ⟨m, hm, hf⟩)
      (congrArg some hid.symm)
    cases heq
  · intro hnot owner howner other hother heq
    have hid := Option.some.inj heq
    -- two features that are given are kept apart by hypothesis, so one of the two is the default
    cases owner with
    | none =>
        cases other with
        | none => rfl
        | some f =>
            obtain ⟨m, hm, hf⟩ := hmem.1 hother
            exact absurd ⟨hmem.1 howner, m, hm, f, hf, hid.symm⟩ hnot
    | some f =>
        have hf := mem_mentionedFeatures (mem_firsts.1 howner)
        cases other with
        | none =>
            obtain ⟨m, hm, hfeature⟩ := hmem.1 howner
            exact absurd ⟨hmem.1 hother, m, hm, f, hfeature, hid⟩ hnot
        | some g =>
            have hg := mem_mentionedFeatures (mem_firsts.1 hother)
            exact congrArg some (hids f hf g hg hid)

/-- A package with a file that is given a feature and one that is not. -/
def halfFeatured (feature : String) : Package where
  name := "Tool"
  guid := Product.upgradeGuid
  version := ⟨0, [1], none, none, none, []⟩
  features := [{ name := feature }]
  entries := [.directory "tool"
    [.file ⟨"tool.exe", some 0, none⟩, .file ⟨"read.me", none, none⟩] none none]

theorem halfFeatured_ids_distinct :
    ∃ root, element (halfFeatured "Console") (.unchecked .current) = .ok root ∧
      ((root.named "Feature").map (·.attribute? "Id")).Nodup := by
  have h : element (halfFeatured "Console") (.unchecked .current) = .ok _ := rfl
  exact ⟨_, h, (feature_ids_distinct_iff h (by decide) (by decide)).2 (by decide)⟩

/-- The one feature is called like the package, and the default feature has the same identifier. -/
theorem halfFeatured_ids_clash :
    (∀ f ∈ (halfFeatured "Tool").mentionedFeatures, ∀ g ∈ (halfFeatured "Tool").mentionedFeatures,
      ((halfFeatured "Tool").feature f).id = ((halfFeatured "Tool").feature g).id → f = g) ∧
    (∀ f ∈ (halfFeatured "Tool").mentionedFeatures,
      "Id" ∉ ((halfFeatured "Tool").feature f).attributes.map Prod.fst) ∧
    ∃ root, element (halfFeatured "Tool") (.unchecked .current) = .ok root ∧
      ¬ ((root.named "Feature").map (·.attribute? "Id")).Nodup := by
  have h : element (halfFeatured "Tool") (.unchecked .current) = .ok _ := rfl
  have hown : ∀ f ∈ (halfFeatured "Tool").mentionedFeatures,
      "Id" ∉ ((halfFeatured "Tool").feature f).attributes.map Prod.fst := by decide
  refine ⟨by decide, hown, _, h, ?_⟩
  rw [feature_ids h hown]
  decide

end Source

end WixAuthoring
