import WixAuthoring.Proofs.Growth

namespace WixAuthoring

/-!
# The names on a walk

A walk shows no names but those it has set out from, those it was given, and those in the targets
of links. So what holds of all of them holds of the place where the walk ends.
-/

def Destination.place : Destination → Location
  | .object place _ => place
  | .vacant place => place

namespace Store

variable {s : Store} {purpose : Purpose} {P : String → Prop}

/-- Holds when the names in the target of every link have a property. -/
def LinksHold (s : Store) (P : String → Prop) : Prop :=
  ∀ place target, s.get? place = some (.link target) → ∀ name ∈ segments target, P name

theorem forall_mem_origin {here : Location} (hhere : ∀ name ∈ here, P name) (path : String) :
    ∀ name ∈ origin here path, P name := by
  rw [origin]
  split
  · exact fun _ h ↦ absurd h List.not_mem_nil
  · exact hhere

theorem Arrives.forall_mem_place (hlinks : s.LinksHold P) {links : Nat} {here : Location}
    {names : List String} {d : Destination} (h : Arrives s purpose links here names d)
    (hhere : ∀ name ∈ here, P name) (hnames : ∀ name ∈ names, P name) :
    ∀ name ∈ d.place, P name := by
  induction h with
  | stay => exact hhere
  | skip _ _ ih => exact ih hhere (List.forall_mem_cons.1 hnames).2
  | up _ ih =>
      have habove := fun x hx ↦ hhere x (List.dropLast_subset _ hx)
      exact ih habove (List.forall_mem_cons.1 hnames).2
  | vacant | link | leaf => exact List.forall_mem_append.2 ⟨hhere, hnames⟩
  | into _ _ _ ih =>
      obtain ⟨hname, hrest⟩ := List.forall_mem_cons.1 hnames
      have hthere := List.forall_mem_append.2 ⟨hhere, List.forall_mem_singleton.2 hname⟩
      exact ih hthere hrest
  | follow _ hget _ _ ih =>
      -- the names of the target come before those that are left
      have hnext := List.forall_mem_append.2
        ⟨hlinks _ _ hget, (List.forall_mem_cons.1 hnames).2⟩
      exact ih (forall_mem_origin hhere _) hnext

theorem forall_mem_file? (hlinks : s.LinksHold P) {here place : Location} {path : String}
    (hhere : ∀ name ∈ here, P name) (hpath : ∀ name ∈ segments path, P name)
    (h : s.file? here path = .ok (some place)) : ∀ name ∈ place, P name := by
  obtain ⟨object, -, hlocate⟩ := file?_eq_some_iff.1 h
  have harrives := (locate_eq_ok_iff.1 hlocate).2
  exact harrives.forall_mem_place hlinks (forall_mem_origin hhere path) hpath

end Store

end WixAuthoring
