namespace WixAuthoring

/-!
# Attributes

Attributes have an order and no name twice. Setting a name that is there keeps its place.
-/

abbrev Attributes := List (String × String)

namespace Attributes

def set (name value : String) : Attributes → Attributes
  | [] => [(name, value)]
  | (n, v) :: rest => if n = name then (n, value) :: rest else (n, v) :: set name value rest

/-- Sets each of the second attributes in the first ones. -/
def update (base extra : Attributes) : Attributes :=
  extra.foldl (fun attributes (name, value) ↦ set name value attributes) base

def ofList (pairs : List (String × String)) : Attributes := update [] pairs

def get? (name : String) (attributes : Attributes) : Option String := attributes.lookup name

@[simp] theorem get?_nil (name : String) : get? name [] = none := rfl

@[simp] theorem get?_cons (name n v : String) (rest : Attributes) :
    get? name ((n, v) :: rest) = if name = n then some v else get? name rest := by
  by_cases h : name = n
  · simp [get?, h]
  · have hn : (name == n) = false := by simpa using h
    simp [get?, List.lookup_cons, h, hn]

@[simp] theorem update_nil (base : Attributes) : update base [] = base := rfl

theorem update_cons (base extra : Attributes) (name value : String) :
    update base ((name, value) :: extra) = update (set name value base) extra := rfl

theorem mem_names_set {name value n : String} {attributes : Attributes} :
    n ∈ (set name value attributes).map Prod.fst ↔ n = name ∨ n ∈ attributes.map Prod.fst := by
  induction attributes with
  | nil => simp [set]
  | cons entry attributes ih =>
    obtain ⟨k, v⟩ := entry
    by_cases h : k = name
    · simp [set, h]
    · simp only [set, h, if_false, List.map_cons, List.mem_cons, ih]
      exact or_left_comm

theorem nodup_names_set {name value : String} {attributes : Attributes}
    (h : (attributes.map Prod.fst).Nodup) :
    ((set name value attributes).map Prod.fst).Nodup := by
  induction attributes with
  | nil => simp [set]
  | cons entry attributes ih =>
    obtain ⟨k, v⟩ := entry
    by_cases hk : k = name
    · simpa [set, hk] using h
    · simp only [List.map_cons, List.nodup_cons] at h
      rw [set, if_neg hk, List.map_cons, List.nodup_cons, mem_names_set, not_or]
      exact ⟨⟨hk, h.1⟩, ih h.2⟩

end Attributes

end WixAuthoring
