import WixAuthoring.Package.Scope
import WixAuthoring.Source.Document

namespace WixAuthoring

/-!
# What the loops of a document come to

Sorting leaves the entries of each kind in their order, whatever stands between them, and fails at
the first entry that may not stand at the top. Registering leaves the components of each feature in
their order, and the features in the order of their first components. Each step of a loop takes
what stands for some items to what stands for one item more.
-/

namespace Entry

def property? : Entry → Option Property
  | .property p => some p
  | _ => none

def setProperty? : Entry → Option SetProperty
  | .setProperty s => some s
  | _ => none

def customAction? : Entry → Option CustomAction
  | .customAction a => some a
  | _ => none

def isDirectory : Entry → Bool
  | .directory _ _ _ _ => true
  | _ => false

/-- Holds of the entries that may stand at the top of a package. -/
def isTopLevel : Entry → Bool
  | .property _ => true
  | .directory _ _ _ _ => true
  | .environment _ => true
  | .setProperty _ => true
  | .customAction _ => true
  | _ => false

end Entry

namespace Source

open Xml

variable {p : Package}

/-- The first entry that may not stand at the top. -/
def checkEntries (p : Package) : Except Failure Unit :=
  match p.entries.find? fun e ↦ !e.isTopLevel with
  | none => .ok ()
  | some e => .error (.unsupportedEntry (Describe.entry p.feature e))

def directories (p : Package) : List Entry := p.entries.filter Entry.isDirectory

/-- What has been sorted when some entries have been read. -/
def sortedOf (es : List Entry) : Sorted where
  properties := es.filterMap Entry.property?
  directories := es.filter Entry.isDirectory
  environment := es.filterMap Entry.environment?
  setProperties := es.filterMap Entry.setProperty?
  actions := es.filterMap Entry.customAction?

/-- One more entry is put behind those of its kind, and behind no others. -/
theorem add_sortedOf (p : Package) (es : List Entry) (e : Entry) :
    (sortedOf es).add p e = if e.isTopLevel then .ok (sortedOf (es ++ [e]))
      else .error (.unsupportedEntry (Describe.entry p.feature e)) := by
  cases e <;>
    simp [Sorted.add, sortedOf, Entry.isTopLevel, Entry.property?, Entry.isDirectory,
      Entry.environment?, Entry.setProperty?, Entry.customAction?, List.filter_cons]

theorem foldlM_add (p : Package) (before es : List Entry) :
    es.foldlM (Sorted.add p) (sortedOf before) =
      match es.find? fun e ↦ !e.isTopLevel with
      | none => .ok (sortedOf (before ++ es))
      | some e => .error (.unsupportedEntry (Describe.entry p.feature e)) := by
  -- the loop keeps that what is sorted is all that has been read, one entry more in each step
  induction es generalizing before with
  | nil => simp [pure, Except.pure]
  | cons e es ih =>
      rw [List.foldlM_cons, add_sortedOf, List.find?_cons]
      cases htop : e.isTopLevel with
      | true =>
          have hrest := ih (before ++ [e])
          rw [List.append_assoc] at hrest
          exact hrest
      | false => rfl

theorem sortEntries_eq (p : Package) :
    sortEntries p = checkEntries p >>= fun _ ↦ .ok (sortedOf p.entries) := by
  have hrun := foldlM_add p [] p.entries
  rw [List.nil_append] at hrun
  rw [sortEntries, checkEntries]
  refine hrun.trans ?_
  cases p.entries.find? fun e ↦ !e.isTopLevel <;> rfl

/-! ## Features -/

/-- Components heaped up by their features. -/
def heaped (members : List Membership) : Register :=
  (firsts (members.map Membership.feature)).map fun f ↦
    (f, (members.filter fun m ↦ m.feature = f).map Membership.component)

/-- Registering changes the heap of one feature, or adds one behind the others. -/
theorem register_map {keys : List (Option FeatureRef)} (hkeys : keys.Nodup)
    (heap : Option FeatureRef → List String) (m : Membership) :
    register (keys.map fun f ↦ (f, heap f)) m =
      (keys.map fun f ↦ (f, heap f ++ if m.feature = f then [m.component] else [])) ++
        if m.feature ∈ keys then [] else [(m.feature, [m.component])] := by
  induction keys with
  | nil => rfl
  | cons f keys ih =>
      obtain ⟨hf, hkeys⟩ := List.nodup_cons.1 hkeys
      rw [List.map_cons, List.map_cons, register, ih hkeys]
      by_cases hm : f = m.feature
      · subst hm
        -- no other heap has this feature, so none of those behind changes
        have hothers : ∀ f ∈ keys, m.feature ≠ f := fun f hmem heq ↦ hf (heq ▸ hmem)
        have hsame : (keys.map fun f ↦ (f, heap f ++ if m.feature = f then [m.component] else [])) =
            keys.map fun f ↦ (f, heap f) :=
          List.map_congr_left fun f hmem ↦ by rw [if_neg (hothers f hmem), List.append_nil]
        simp [hsame]
      · simp [hm, Ne.symm hm]

theorem firsts_concat {α : Type} [DecidableEq α] (l : List α) (a : α) :
    firsts (l ++ [a]) = firsts l ++ if a ∈ l then [] else [a] := by
  induction l with
  | nil => rfl
  | cons b l ih =>
      rw [List.cons_append, firsts, firsts, ih, List.filter_append, List.cons_append]
      by_cases ha : a = b
      · subst ha
        by_cases hl : a ∈ l <;> simp [hl]
      · by_cases hl : a ∈ l <;> simp [hl, ha]

/-- What is registered is heaped up with what was registered before. -/
theorem register_heaped (members : List Membership) (m : Membership) :
    register (heaped members) m = heaped (members ++ [m]) := by
  have hheap (f : Option FeatureRef) :
      ((members ++ [m]).filter fun n ↦ n.feature = f).map Membership.component =
        (members.filter fun n ↦ n.feature = f).map Membership.component ++
          if m.feature = f then [m.component] else [] := by
    rw [List.filter_append, List.map_append]
    by_cases hf : m.feature = f <;> simp [hf]
  rw [heaped, heaped, register_map (nodup_firsts _), List.map_append, List.map_singleton,
    firsts_concat, List.map_append]
  simp only [hheap, mem_firsts]
  by_cases hm : m.feature ∈ members.map Membership.feature
  · rw [if_pos hm, if_pos hm, List.map_nil]
  · have hnone : (members.filter fun n ↦ n.feature = m.feature) = [] :=
      List.filter_eq_nil_iff.2 fun n hn heq ↦
        hm (List.mem_map.2 ⟨n, hn, of_decide_eq_true heq⟩)
    rw [if_neg hm, if_neg hm, List.map_singleton, if_pos rfl, hnone]
    rfl

theorem foldl_register (before members : List Membership) :
    members.foldl register (heaped before) = heaped (before ++ members) := by
  induction members generalizing before with
  | nil => rw [List.append_nil, List.foldl_nil]
  | cons m members ih =>
      rw [List.foldl_cons, register_heaped, ih, List.append_assoc, List.singleton_append]

theorem byFeature_eq (members : List Membership) : byFeature members = heaped members :=
  foldl_register [] members

/-! ## Variables -/

def numberedVariables (p : Package) : List (EnvironmentVariable × Nat) := p.environment.zipIdx 1

def variableComponents (p : Package) : List Element :=
  (numberedVariables p).map fun (v, index) ↦ variableComponent p.guid v index

def variableMembers (p : Package) : List Membership :=
  (numberedVariables p).map fun (v, index) ↦ ⟨v.feature, componentId (variableId v index)⟩

/-- The tree with the components of the variables in its first directory. -/
def withVariables (p : Package) : List Element → Except Failure (List Element)
  | [] => if p.environment = [] then .ok [] else .error .noInstallDirectory
  | first :: rest => .ok (first.append (variableComponents p) :: rest)

theorem variablesFrom_eq (package : Guid) (n : Nat) (vs : List EnvironmentVariable) :
    variablesFrom package n vs =
      ((vs.zipIdx n).map fun (v, index) ↦ variableComponent package v index,
        (vs.zipIdx n).map fun (v, index) ↦ ⟨v.feature, componentId (variableId v index)⟩) := by
  induction vs generalizing n with
  | nil => rfl
  | cons v vs ih => rw [variablesFrom, ih, List.zipIdx_cons, List.map_cons, List.map_cons]

theorem addVariables_eq (p : Package) (tree : List Element) :
    addVariables p.guid p.environment tree =
      withVariables p tree >>= fun tree ↦ .ok (tree, variableMembers p) := by
  cases tree with
  | nil =>
      rw [addVariables, withVariables, variableMembers, numberedVariables]
      cases p.environment <;> rfl
  | cons first rest =>
      rw [addVariables, variablesFrom_eq]
      rfl

end Source

end WixAuthoring
