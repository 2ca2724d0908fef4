import WixAuthoring.Xml.Element

namespace WixAuthoring.Xml.Element

/-!
# The elements of a name

What a document holds of one name is read off part by part: an element gives itself and what its
children give, and parts that stand one behind the other give one behind the other.
-/

/-- The elements of a name among some elements and everything below them. -/
def namedAmong (name : String) (es : List Element) : List Element :=
  (flattenAll es).filter (·.name = name)

@[simp] theorem flattenAll_nil : flattenAll [] = [] := by simp [flattenAll]

@[simp] theorem flattenAll_cons (e : Element) (es : List Element) :
    flattenAll (e :: es) = e :: flattenAll e.children ++ flattenAll es := by
  cases e
  simp [flattenAll, flatten, children]

@[simp] theorem flattenAll_append (es fs : List Element) :
    flattenAll (es ++ fs) = flattenAll es ++ flattenAll fs := by
  induction es with
  | nil => simp
  | cons e es ih => simp [ih]

theorem flatten_eq (e : Element) : e.flatten = e :: flattenAll e.children := by
  cases e
  simp [flatten, children]

theorem forall_mem_flatten {P : Element → Prop} {e : Element} :
    (∀ x ∈ e.flatten, P x) ↔ P e ∧ ∀ x ∈ flattenAll e.children, P x := by
  rw [flatten_eq, List.forall_mem_cons]

theorem forall_mem_flattenAll_cons {P : Element → Prop} {e : Element} {es : List Element} :
    (∀ x ∈ flattenAll (e :: es), P x) ↔ (∀ x ∈ e.flatten, P x) ∧ ∀ x ∈ flattenAll es, P x := by
  rw [flattenAll_cons, ← flatten_eq, List.forall_mem_append]

theorem forall_mem_flattenAll_node {P : Element → Prop} {e : Element} {es : List Element} :
    (∀ x ∈ flattenAll (e :: es), P x) ↔
      P e ∧ (∀ x ∈ flattenAll e.children, P x) ∧ ∀ x ∈ flattenAll es, P x := by
  rw [forall_mem_flattenAll_cons, forall_mem_flatten, and_assoc]

theorem forall_mem_flattenAll_append {P : Element → Prop} {es fs : List Element} :
    (∀ x ∈ flattenAll (es ++ fs), P x) ↔
      (∀ x ∈ flattenAll es, P x) ∧ ∀ x ∈ flattenAll fs, P x := by
  rw [flattenAll_append, List.forall_mem_append]

theorem forall_mem_flattenAll_map {P : Element → Prop} {α : Type} {f : α → Element}
    (h : ∀ a, ∀ x ∈ flattenAll [f a], P x) (l : List α) : ∀ x ∈ flattenAll (l.map f), P x := by
  induction l with
  | nil => simp
  | cons a l ih => exact forall_mem_flattenAll_append.2 ⟨h a, ih⟩

theorem mem_flattenAll {x : Element} {es : List Element} :
    x ∈ flattenAll es ↔ ∃ e ∈ es, x ∈ e.flatten := by
  induction es with
  | nil => simp
  | cons e es ih => simp [ih, flatten_eq, or_assoc]

theorem mem_flattenAll_of_mem {e : Element} {es : List Element} (he : e ∈ es) : e ∈ flattenAll es :=
  mem_flattenAll.2 ⟨e, he, by simp [flatten_eq]⟩

theorem flattenAll_of_childless {es : List Element} (h : ∀ e ∈ es, e.children = []) :
    flattenAll es = es := by
  induction es with
  | nil => simp
  | cons e es ih =>
      have he : e.children = [] := h e (by simp)
      simp [he, ih fun x hx ↦ h x (by simp [hx])]

theorem flattenAll_map_of_childless {α : Type} {f : α → Element} (h : ∀ a, (f a).children = [])
    (l : List α) : flattenAll (l.map f) = l.map f := by
  apply flattenAll_of_childless
  intro e he
  obtain ⟨a, -, rfl⟩ := List.mem_map.1 he
  exact h a

theorem named_eq (e : Element) (name : String) :
    e.named name = (if e.name = name then [e] else []) ++ namedAmong name e.children := by
  by_cases h : e.name = name <;> simp [named, flatten_eq, namedAmong, h]

@[simp] theorem namedAmong_nil (name : String) : namedAmong name [] = [] := by simp [namedAmong]

@[simp] theorem namedAmong_append (name : String) (es fs : List Element) :
    namedAmong name (es ++ fs) = namedAmong name es ++ namedAmong name fs := by
  simp [namedAmong]

theorem namedAmong_cons (name : String) (e : Element) (es : List Element) :
    namedAmong name (e :: es) = e.named name ++ namedAmong name es := by
  simp [namedAmong, named, flatten_eq, List.filter_cons]
  split <;> simp

theorem namedAmong_cons_of_ne {name : String} {e : Element} (h : e.name ≠ name)
    (es : List Element) :
    namedAmong name (e :: es) = namedAmong name e.children ++ namedAmong name es := by
  rw [namedAmong_cons, named_eq, if_neg h, List.nil_append]

theorem namedAmong_map {α : Type} (name : String) (f : α → Element) (l : List α) :
    namedAmong name (l.map f) = l.flatMap fun a ↦ (f a).named name := by
  induction l with
  | nil => simp
  | cons a l ih => rw [List.map_cons, namedAmong_cons, ih, List.flatMap_cons]

theorem filter_name_eq_nil {names : List String} {es : List Element} {name : String}
    (hes : ∀ e ∈ es, e.name ∈ names) (hname : name ∉ names) : es.filter (·.name = name) = [] := by
  rw [List.filter_eq_nil_iff]
  intro e he hn
  have : e.name = name := by simpa using hn
  exact hname (this ▸ hes e he)

theorem namedAmong_eq_nil {names : List String} {es : List Element} {name : String}
    (hes : ∀ e ∈ flattenAll es, e.name ∈ names) (hname : name ∉ names) : namedAmong name es = [] :=
  filter_name_eq_nil hes hname

/-- What is put behind the children of the first element is found in between. -/
theorem namedAmong_modifyHead_append {name : String} {declared more : List Element}
    (hdeclared : declared = [] → more = []) (hname : ∀ e ∈ declared, e.name ≠ name) :
    ∃ before after, namedAmong name declared = before ++ after ∧
      namedAmong name (declared.modifyHead (Element.append more)) =
        before ++ namedAmong name more ++ after := by
  cases declared with
  | nil => exact ⟨[], [], by simp [hdeclared rfl]⟩
  | cons first rest =>
      have hfirst : first.name ≠ name := hname first (by simp)
      have happend : (first.append more).name ≠ name := by cases first; exact hfirst
      refine ⟨namedAmong name first.children, namedAmong name rest, ?_, ?_⟩
      · rw [namedAmong_cons_of_ne hfirst]
      · rw [List.modifyHead_cons, namedAmong_cons_of_ne happend, children_append, namedAmong_append]

end WixAuthoring.Xml.Element
