import WixAuthoring.Proofs.Layout
import Mathlib.Data.List.TakeDrop
import Mathlib.Data.List.TakeWhile

namespace WixAuthoring.Xml

/-!
# Names in a default namespace

Where nothing but a default namespace is declared, a reader puts the names of elements into it and
leaves the names of attributes alone. What it makes of a written element is then the element with
its names qualified.
-/

namespace Element

mutual

/-- The element with the names of elements in a namespace, without the attribute that declares it.
-/
def qualify (space : String) : Element → Element
  | .node name attributes text children =>
    .node (expandedName space name) (attributes.filter (·.1 ≠ "xmlns")) text
      (qualifyAll space children)

def qualifyAll (space : String) : List Element → List Element
  | [] => []
  | e :: rest => e.qualify space :: qualifyAll space rest

end

/-- Holds of an element with no name that is in a namespace or declares one. -/
structure IsLocal (e : Element) : Prop where
  name : ':' ∉ e.name.toList
  attributes : ∀ a ∈ e.attributes, ':' ∉ a.1.toList ∧ a.1 ≠ "xmlns"

end Element

/-! ## Names -/

theorem splitName_of_not_mem {name : String} (h : ':' ∉ name.toList) : splitName name = none := by
  have hall : ∀ c ∈ name.toList, decide (c ≠ ':') = true := by
    intro c hc
    exact decide_eq_true fun heq ↦ h (heq ▸ hc)
  have hspan : name.toList.span (· ≠ ':') = (name.toList, []) := by
    rw [List.span_eq_takeWhile_dropWhile, List.takeWhile_eq_self_iff.2 hall,
      List.dropWhile_eq_nil_iff.2 hall]
  rw [splitName, hspan]

theorem expand?_of_not_mem {name : String} (h : ':' ∉ name.toList) (scope : Scope)
    (space : String) : scope.expand? space name = some (expandedName space name) := by
  rw [Scope.expand?, splitName_of_not_mem h]

theorem declared?_eq_none {name : String} (h : ':' ∉ name.toList) (hname : name ≠ "xmlns") :
    declared? name = none := by
  rw [declared?, if_neg hname, splitName_of_not_mem h]

theorem enter_eq_self {attributes : Attributes}
    (h : ∀ a ∈ attributes, ':' ∉ a.1.toList ∧ a.1 ≠ "xmlns") (scope : Scope) :
    scope.enter attributes = scope := by
  have hnone : ∀ a ∈ attributes, ((declared? a.1).map fun short ↦ (short, a.2)) = none := by
    intro a ha
    rw [declared?_eq_none (h a ha).1 (h a ha).2, Option.map_none]
  rw [Scope.enter, List.filterMap_eq_nil_iff.2 hnone, List.nil_append]

theorem expandAttributes?_eq_self {attributes : Attributes}
    (h : ∀ a ∈ attributes, ':' ∉ a.1.toList ∧ a.1 ≠ "xmlns")
    (hnodup : (attributes.map Prod.fst).Nodup) (scope : Scope) :
    scope.expandAttributes? attributes = some attributes := by
  induction attributes with
  | nil => rfl
  | cons a rest ih =>
      obtain ⟨name, value⟩ := a
      rw [List.forall_mem_cons] at h
      rw [List.map_cons, List.nodup_cons] at hnodup
      have hlookup := lookup_eq_none_of_not_mem hnodup.1
      have hlocal : expandedName "" name = name := rfl
      rw [Scope.expandAttributes?, ih h.2 hnodup.2]
      simp only [Option.bind_eq_bind, Option.bind_some, declared?_eq_none h.1.1 h.1.2,
        expand?_of_not_mem h.1.1, hlocal, hlookup]
      rfl

/-! ## Elements -/

theorem expandAll?_append {scope : Scope} {nodes more expanded others : List Node}
    (hnodes : expandAll? scope nodes = some expanded)
    (hmore : expandAll? scope more = some others) :
    expandAll? scope (nodes ++ more) = some (expanded ++ others) := by
  induction nodes generalizing expanded with
  | nil =>
      obtain rfl := Option.some.inj hnodes
      exact hmore
  | cons node rest ih =>
      rw [expandAll?] at hnodes
      obtain ⟨first, hfirst, hnodes⟩ := Option.bind_eq_some_iff.1 hnodes
      obtain ⟨behind, hbehind, hnodes⟩ := Option.bind_eq_some_iff.1 hnodes
      obtain rfl := Option.some.inj hnodes
      rw [List.cons_append, expandAll?, hfirst, ih hbehind]
      rfl

theorem expandAll?_dataNodes (scope : Scope) (data : List Char) :
    expandAll? scope (dataNodes data) = some (dataNodes data) := by
  rw [dataNodes]
  split <;> rfl

theorem expand?_element {scope : Scope} {space name : String} {attributes : Attributes}
    {content expanded : List Node} (hscope : scope.lookup "" = some space)
    (hname : ':' ∉ name.toList) (hattributes : ∀ a ∈ attributes, ':' ∉ a.1.toList ∧ a.1 ≠ "xmlns")
    (hnodup : (attributes.map Prod.fst).Nodup)
    (hcontent : expandAll? scope content = some expanded) :
    (Node.element name attributes content).expand? scope =
      some (.element (expandedName space name) attributes expanded) := by
  rw [Node.expand?, enter_eq_self hattributes, hscope]
  simp only [Option.getD_some, expand?_of_not_mem hname,
    expandAttributes?_eq_self hattributes hnodup, hcontent, Option.bind_eq_bind, Option.bind_some]
  rfl

open Element

theorem filter_xmlns_eq_self {attributes : Attributes}
    (h : ∀ a ∈ attributes, ':' ∉ a.1.toList ∧ a.1 ≠ "xmlns") :
    attributes.filter (·.1 ≠ "xmlns") = attributes := by
  rw [List.filter_eq_self]
  intro a ha
  exact decide_eq_true (h a ha).2

section

variable {scope : Scope} {space : String}

mutual

theorem expand?_laidOut (hscope : scope.lookup "" = some space) (level : Nat) : (e : Element) →
    (∀ x ∈ e.flatten, x.IsReadable ∧ x.IsLocal) →
    (e.laidOut level).expand? scope = some ((e.qualify space).laidOut level)
  | .node name attributes text children, h => by
    obtain ⟨⟨hreadable, hlocal⟩, hbelow⟩ := forall_mem_flatten.1 h
    have hchildren := expandAll?_laidOutAll hscope (level + 1) children hbelow
    have hkept : attributes.filter (·.1 ≠ "xmlns") = attributes :=
      filter_xmlns_eq_self hlocal.attributes
    cases children with
    | nil =>
        rw [qualify, hkept, qualifyAll, laidOut, laidOut]
        exact expand?_element hscope hlocal.name hlocal.attributes hreadable.nodup
          (expandAll?_dataNodes scope text.toList)
    | cons first rest =>
        rw [qualifyAll] at hchildren
        rw [qualify, hkept, qualifyAll, laidOut, laidOut]
        exact expand?_element hscope hlocal.name hlocal.attributes hreadable.nodup
          (expandAll?_append hchildren rfl)

theorem expandAll?_laidOutAll (hscope : scope.lookup "" = some space) (level : Nat) :
    (es : List Element) → (∀ x ∈ flattenAll es, x.IsReadable ∧ x.IsLocal) →
    expandAll? scope (laidOutAll level es) = some (laidOutAll level (qualifyAll space es))
  | [], _ => rfl
  | e :: rest, h => by
    obtain ⟨he, hrest⟩ := forall_mem_flattenAll_cons.1 h
    rw [laidOutAll, qualifyAll, laidOutAll, expandAll?, expandAll?,
      expand?_laidOut hscope level e he, expandAll?_laidOutAll hscope level rest hrest]
    rfl

end

end

end WixAuthoring.Xml
