import WixAuthoring.Product
import WixAuthoring.Proofs.Document
import Mathlib.Data.List.Perm.Basic

namespace WixAuthoring

/-!
# The features of a package share out its components

Each component is referred to once, by the feature it belongs to. Features come in the order in
which they are first given a component, and each refers to its components in the order in which it
is given them.
-/

/-- Holds of a list that names what another one holds, each item once and at its first place. -/
structure AreFirsts {α : Type} [DecidableEq α] (keys l : List α) : Prop where
  nodup : keys.Nodup
  mem_iff : ∀ a, a ∈ keys ↔ a ∈ l
  ordered : keys.Pairwise fun a b ↦ l.idxOf a < l.idxOf b

theorem areFirsts_firsts {α : Type} [DecidableEq α] (l : List α) : AreFirsts (firsts l) l where
  nodup := nodup_firsts l
  mem_iff _ := mem_firsts
  ordered := by
    induction l with
    | nil => simp [firsts]
    | cons a l ih =>
        have hne : ∀ b ∈ (firsts l).filter (· ≠ a), a ≠ b := fun b hb ↦
          Ne.symm (by simpa using (List.mem_filter.1 hb).2)
        rw [firsts, List.pairwise_cons]
        constructor
        · intro b hb
          rw [List.idxOf_cons_self, List.idxOf_cons_ne l (hne b hb)]
          exact Nat.succ_pos _
        · refine (ih.filter _).imp_of_mem ?_
          intro b c hb hc hbc
          rw [List.idxOf_cons_ne l (hne b hb), List.idxOf_cons_ne l (hne c hc)]
          exact Nat.succ_lt_succ hbc

/-- Sorting a list into heaps by a key loses nothing and repeats nothing. -/
theorem flatMap_filter_perm {α κ : Type} [DecidableEq κ] {key : α → κ} {l : List α} {keys : List κ}
    (hkeys : keys.Nodup) (hl : ∀ a ∈ l, key a ∈ keys) :
    (keys.flatMap fun k ↦ l.filter fun a ↦ key a = k).Perm l := by
  induction keys generalizing l with
  | nil =>
      have : l = [] := List.eq_nil_iff_forall_not_mem.2 fun a ha ↦ by simpa using hl a ha
      simp [this]
  | cons k keys ih =>
      obtain ⟨hk, hkeys⟩ := List.nodup_cons.1 hkeys
      have hothers : ∀ k' ∈ keys, ((l.filter fun a ↦ !decide (key a = k)).filter fun a ↦ key a = k') =
          l.filter fun a ↦ key a = k' := by
        intro k' hk'
        rw [List.filter_filter]
        congr 1
        funext a
        by_cases ha : key a = k' <;> simp [ha]
        rintro rfl
        exact hk hk'
      have hrest : (keys.flatMap fun k' ↦ l.filter fun a ↦ key a = k').Perm
          (l.filter fun a ↦ !decide (key a = k)) := by
        rw [← List.flatMap_congr hothers]
        refine ih hkeys fun a ha ↦ ?_
        obtain ⟨ha, hne⟩ := List.mem_filter.1 ha
        exact (List.mem_cons.1 (hl a ha)).resolve_left (by simpa using hne)
      rw [List.flatMap_cons]
      exact (hrest.append_left _).trans (List.filter_append_perm (fun a ↦ decide (key a = k)) l)

namespace Source

open Xml Element

variable {p : Package} {files : FileSource} {root : Element}

theorem memberships_ids {fileComponents : List Element}
    (h : List.Forall₂ (IsFileComponent p.guid files) p.placedFiles fileComponents) :
    (fileComponents ++ variableComponents p).map (·.attribute? "Id") =
      (memberships p).map fun m ↦ some m.component := by
  rw [memberships, List.map_append, List.map_append, fileComponent_ids h, variableComponents,
    numberedVariables, List.map_map, List.map_map, List.map_map]
  rfl

theorem namedAmong_feature_featureElements (p : Package) (members : List Membership) :
    namedAmong "Feature" (featureElements p members) = featureElements p members := by
  rw [featureElements, namedAmong_map]
  simp [named_featureElement, List.map_eq_flatMap]

theorem componentRef_ids_perm (p : Package) (members : List Membership) :
    ((namedAmong "ComponentRef" (featureElements p members)).map (·.attribute? "Id")).Perm
      (members.map fun m ↦ some m.component) := by
  have hrefs : (namedAmong "ComponentRef" (featureElements p members)).map (·.attribute? "Id") =
      ((firsts (members.map Membership.feature)).flatMap fun f ↦
        members.filter fun m ↦ m.feature = f).map fun m ↦ some m.component := by
    rw [featureElements, namedAmong_map, byFeature_eq, heaped, List.flatMap_map, List.map_flatMap,
      List.map_flatMap]
    congr 1
    funext f
    simp [named_featureElement, Function.comp_def, attribute?, leaf, attributes, Attributes.get?]
  rw [hrefs]
  refine (flatMap_filter_perm (nodup_firsts _) fun m hm ↦ ?_).map _
  simpa using ⟨m, hm, rfl⟩

/-- Each component is referred to once, and the features, in the order of their first component,
refer to theirs in order. What is given no feature belongs to one default feature with the name of
the package. -/
theorem components_shared_out (h : element p files = .ok root) :
    ∃ fileComponents owners,
      List.Forall₂ (IsFileComponent p.guid files) p.placedFiles fileComponents ∧
      (root.named "Component").Perm (fileComponents ++ variableComponents p) ∧
      ((root.named "ComponentRef").map (·.attribute? "Id")).Perm
        ((root.named "Component").map (·.attribute? "Id")) ∧
      AreFirsts owners ((memberships p).map Membership.feature) ∧
      (featureAttributes p.defaultFeature).get? "Title" = some p.name ∧
      root.named "Feature" = owners.map fun owner ↦
        .branch "Feature" (featureAttributes (owner.elim p.defaultFeature p.feature))
          (((memberships p).filter fun m ↦ m.feature = owner).map fun m ↦
            .leaf "ComponentRef" [("Id", m.component)]) := by
  obtain ⟨declared, license, -, hmirrors, hdeclared, hlicense, rfl⟩ := element_eq_ok h
  obtain ⟨before, after, hdeclaredName, htree⟩ :=
    namedAmong_withVariableComponents "Component" hmirrors hdeclared (by decide)
  rw [namedAmong_component_variableComponents] at htree
  -- The components of variables stand behind those of the first directory, not behind all of them.
  have hperm : (namedAmong "Component" (withVariableComponents p declared)).Perm
      (namedAmong "Component" declared ++ variableComponents p) := by
    rw [htree, hdeclaredName, List.append_assoc, List.append_assoc]
    exact List.perm_append_comm.append_left before
  refine ⟨_, _, hmirrors.components, ?_, ?_, areFirsts_firsts _, rfl, ?_⟩
  · rw [named_tree_name "Component" hlicense (by decide)]
    exact hperm
  · rw [named_feature_name "ComponentRef" hmirrors hdeclared hlicense (by decide),
      named_tree_name "Component" hlicense (by decide)]
    refine (componentRef_ids_perm p (memberships p)).trans ?_
    rw [← memberships_ids hmirrors.components]
    exact (hperm.map _).symm
  · rw [named_feature_name "Feature" hmirrors hdeclared hlicense (by decide),
      namedAmong_feature_featureElements]
    simp [featureElements, byFeature_eq, heaped, featureElement, Function.comp_def]

theorem product_components_shared_out :
    ∃ root, element (Product.package ⟨0, [1, 2, 3], none, none, none, []⟩ none)
        (.unchecked .current) = .ok root ∧
      ((root.named "ComponentRef").map (·.attribute? "Id")).Perm
        ((root.named "Component").map (·.attribute? "Id")) := by
  have h : element (Product.package ⟨0, [1, 2, 3], none, none, none, []⟩ none)
      (.unchecked .current) = .ok _ := rfl
  obtain ⟨fileComponents, owners, -, -, hshared, -⟩ := components_shared_out h
  exact ⟨_, h, hshared⟩

end Source

end WixAuthoring
