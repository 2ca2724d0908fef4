import WixAuthoring.Text.Utf8

namespace WixAuthoring

/-!
# File stores

A store holds files, directories and links, each at its location: the names that lead to it from the
root down. The root is always there. Putting an object at a location changes what is found at that
location and nowhere else.
-/

abbrev Location := List String

inductive StoreObject where
  | file (content : List UInt8) (executable : Bool)
  | directory
  | link (target : String)
  /-- A device takes whatever is written and keeps nothing. -/
  | device
  deriving DecidableEq, Repr

def StoreObject.isFile : StoreObject → Bool
  | .file _ _ => true
  | _ => false

structure Store where
  objects : List (Location × StoreObject) := []
  deriving DecidableEq, Repr

namespace Store

def find (place : Location) : List (Location × StoreObject) → Option StoreObject
  | [] => none
  | (location, object) :: rest => if location = place then some object else find place rest

def get? (s : Store) (place : Location) : Option StoreObject :=
  if place = [] then some .directory else find place s.objects

/-- The store without the object at a location. -/
def erase (s : Store) (place : Location) : Store := ⟨s.objects.filter (·.1 ≠ place)⟩

def put (s : Store) (place : Location) (object : StoreObject) : Store :=
  ⟨(place, object) :: (s.erase place).objects⟩

theorem find_filter_ne {place other : Location} (h : place ≠ other)
    (objects : List (Location × StoreObject)) :
    find place (objects.filter (·.1 ≠ other)) = find place objects := by
  induction objects with
  | nil => rfl
  | cons entry objects ih =>
    obtain ⟨location, object⟩ := entry
    by_cases hl : location = other
    · subst hl
      simpa [find, Ne.symm h] using ih
    · by_cases ha : location = place <;> simp_all [find]

@[simp] theorem get?_root (s : Store) : s.get? [] = some .directory := rfl

theorem get?_put_self (s : Store) {place : Location} (h : place ≠ []) (object : StoreObject) :
    (s.put place object).get? place = some object := by
  simp [get?, put, find, h]

theorem get?_put_ne (s : Store) {place other : Location} (h : other ≠ place) (object : StoreObject) :
    (s.put place object).get? other = s.get? other := by
  by_cases ho : other = []
  · simp [get?, ho]
  · simp only [get?, ho, if_false, put, find, Ne.symm h, erase]
    exact find_filter_ne h _

end Store

end WixAuthoring
