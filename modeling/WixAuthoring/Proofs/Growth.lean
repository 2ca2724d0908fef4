import WixAuthoring.Proofs.Arrival
import WixAuthoring.Source.Files

namespace WixAuthoring

/-!
# Stores that grow

A store grows when nothing in it is taken away or becomes something else. Files may change what
they hold, and vacant locations may be filled. A walk that arrives at an object still arrives there
after the store has grown.
-/

/-- What an object is, whatever a file holds. -/
def StoreObject.outline : StoreObject → StoreObject
  | .file _ executable => .file [] executable
  | object => object

namespace StoreObject

variable {object : StoreObject}

theorem eq_directory_of_outline (h : object.outline = directory) : object = .directory := by
  cases object <;> simp_all [outline]

theorem eq_device_of_outline (h : object.outline = device) : object = .device := by
  cases object <;> simp_all [outline]

theorem eq_link_of_outline {target : String} (h : object.outline = link target) :
    object = .link target := by
  cases object <;> simp_all [outline]

theorem eq_file_of_outline {content : List UInt8} {executable : Bool}
    (h : object.outline = (file content executable).outline) :
    ∃ later, object = .file later executable := by
  cases object <;> simp_all [outline]

theorem isFile_of_outline {other : StoreObject} (h : object.outline = other.outline) :
    object.isFile = other.isFile := by
  cases object <;> cases other <;> simp_all [outline, isFile]

end StoreObject

namespace Store

open StoreObject

def Grows (s t : Store) : Prop :=
  ∀ place object, s.get? place = some object →
    ∃ later, t.get? place = some later ∧ later.outline = object.outline

variable {s t u : Store} {purpose : Purpose} {links : Nat} {here place : Location}
  {names : List String} {path : String} {d : Destination} {object : StoreObject}

theorem Grows.refl (s : Store) : s.Grows s := fun _ object h ↦ ⟨object, h, rfl⟩

theorem Grows.trans (hst : s.Grows t) (htu : t.Grows u) : s.Grows u := by
  intro place object h
  obtain ⟨later, hlater, hsame⟩ := hst place object h
  obtain ⟨latest, hlatest, hkept⟩ := htu place later hlater
  exact ⟨latest, hlatest, hkept.trans hsame⟩

theorem Grows.put (hplace : place ≠ [])
    (h : ∀ old, s.get? place = some old → object.outline = old.outline) :
    s.Grows (s.put place object) := by
  intro other old hold
  by_cases heq : other = place
  · subst heq
    exact ⟨object, get?_put_self s hplace object, h old hold⟩
  · exact ⟨old, (get?_put_ne s heq object).trans hold, rfl⟩

theorem Grows.directory (h : s.Grows t) (hget : s.get? place = some .directory) :
    t.get? place = some .directory := by
  obtain ⟨later, hlater, hsame⟩ := h _ _ hget
  rw [hlater, eq_directory_of_outline hsame]

theorem Grows.link (h : s.Grows t) {target : String} (hget : s.get? place = some (.link target)) :
    t.get? place = some (.link target) := by
  obtain ⟨later, hlater, hsame⟩ := h _ _ hget
  rw [hlater, eq_link_of_outline hsame]

/-! ## Walks in a store that has grown -/

/-- Nothing but directories is arrived at without being found. -/
theorem Arrives.get? (h : Arrives s purpose links here names (.object place object))
    (hobject : object ≠ .directory) : s.get? place = some object := by
  generalize hd : Destination.object place object = d at h
  induction h with
  | stay => exact absurd (Destination.object.inj hd).2 hobject
  | skip _ _ ih | up _ ih | into _ _ _ ih | follow _ _ _ _ ih => exact ih hd
  | vacant => cases hd
  | link _ _ hget | leaf _ _ hget =>
      obtain ⟨rfl, rfl⟩ := Destination.object.inj hd
      exact hget

theorem Arrives.get?_eq_none (h : Arrives s purpose links here names (.vacant place)) :
    s.get? place = none := by
  generalize hd : Destination.vacant place = d at h
  induction h with
  | stay | link | leaf => cases hd
  | skip _ _ ih | up _ ih | into _ _ _ ih | follow _ _ _ _ ih => exact ih hd
  | vacant _ _ hget =>
      obtain rfl := Destination.vacant.inj hd
      exact hget

theorem Arrives.of_grows (hgrows : s.Grows t)
    (h : Arrives s purpose links here names (.object place object)) :
    ∃ later, Arrives t purpose links here names (.object place later) ∧
      later.outline = object.outline := by
  generalize hd : Destination.object place object = d at h
  induction h with
  | stay links here =>
      obtain ⟨rfl, rfl⟩ := Destination.object.inj hd
      exact ⟨.directory, .stay links _, rfl⟩
  | skip hname _ ih =>
      obtain ⟨later, h, hsame⟩ := ih hd
      exact ⟨later, .skip hname h, hsame⟩
  | up _ ih =>
      obtain ⟨later, h, hsame⟩ := ih hd
      exact ⟨later, .up h, hsame⟩
  | vacant => cases hd
  | into hname hget _ ih =>
      obtain ⟨later, h, hsame⟩ := ih hd
      exact ⟨later, .into hname (hgrows.directory hget) h, hsame⟩
  | follow hname hget hgoes _ ih =>
      obtain ⟨later, h, hsame⟩ := ih hd
      exact ⟨later, .follow hname (hgrows.link hget) hgoes h, hsame⟩
  | link links hname hget hstops =>
      obtain ⟨rfl, rfl⟩ := Destination.object.inj hd
      exact ⟨_, .link links hname (hgrows.link hget) hstops, rfl⟩
  | leaf links hname hget hdirectory hlink =>
      obtain ⟨rfl, rfl⟩ := Destination.object.inj hd
      obtain ⟨later, hlater, hsame⟩ := hgrows _ _ hget
      refine ⟨later, .leaf links hname hlater ?_ ?_, hsame⟩
      · rintro rfl
        exact hdirectory (eq_directory_of_outline hsame.symm)
      · rintro target rfl
        exact hlink target (eq_link_of_outline hsame.symm)

/-- Where there was nothing, a walk arrives at what has been put there. -/
theorem Arrives.of_vacant (hgrows : s.Grows t) (hget : t.get? place = some object)
    (hlink : ∀ target, object ≠ .link target)
    (h : Arrives s purpose links here names (.vacant place)) :
    Arrives t purpose links here names (.object place object) := by
  generalize hd : Destination.vacant place = d at h
  induction h with
  | stay | link | leaf => cases hd
  | skip hname _ ih => exact .skip hname (ih hd)
  | up _ ih => exact .up (ih hd)
  | into hname hinto _ ih => exact .into hname (hgrows.directory hinto) (ih hd)
  | follow hname hthrough hgoes _ ih => exact .follow hname (hgrows.link hthrough) hgoes (ih hd)
  | @vacant links here name hname hvacant =>
      obtain rfl := Destination.vacant.inj hd
      by_cases hdirectory : object = .directory
      · subst hdirectory
        exact .into hname hget (.stay links _)
      · exact .leaf links hname hget hdirectory hlink

/-! ## What is wanted at the end of a path -/

theorem LooksUp.look {name : String} {rest : List String} (h : LooksUp purpose name rest) :
    LooksUp .look name rest :=
  { h with unslashed := fun hwrite ↦ by cases hwrite }

theorem LooksUp.name {name : String} {rest : List String} (h : LooksUp .look name rest) :
    LooksUp .name name rest :=
  { h with unslashed := fun hwrite ↦ by cases hwrite }

/-- Whoever only looks arrives wherever a walk ends that does not end at a link. -/
theorem Arrives.look (h : Arrives s purpose links here names d)
    (hlink : ∀ place target, d ≠ .object place (.link target)) :
    Arrives s .look links here names d := by
  induction h with
  | stay links here => exact .stay links here
  | skip hname _ ih => exact .skip hname (ih hlink)
  | up _ ih => exact .up (ih hlink)
  | vacant links hname hget => exact .vacant links hname.look hget
  | into hname hget _ ih => exact .into hname.look hget (ih hlink)
  | follow hname hget _ _ ih => exact .follow hname.look hget (by simp) (ih hlink)
  | link => exact absurd rfl (hlink _ _)
  | leaf links hname hget hdirectory hleaf => exact .leaf links hname.look hget hdirectory hleaf

/-- What can be looked at has a name at its path. -/
theorem Arrives.exists_name (h : Arrives s .look links here names (.object place object)) :
    ∃ named, Arrives s .name links here names named ∧ ∀ place, named ≠ .vacant place := by
  generalize hd : Destination.object place object = d at h
  induction h with
  | stay links here => exact ⟨_, .stay links here, by simp⟩
  | skip hname _ ih =>
      obtain ⟨named, h, hobject⟩ := ih hd
      exact ⟨named, .skip hname h, hobject⟩
  | up _ ih =>
      obtain ⟨named, h, hobject⟩ := ih hd
      exact ⟨named, .up h, hobject⟩
  | vacant => cases hd
  | into hname hget _ ih =>
      obtain ⟨named, h, hobject⟩ := ih hd
      exact ⟨named, .into hname.name hget h, hobject⟩
  | @follow links here name target rest d hname hget hgoes _ ih =>
      -- A link at the very end is what the path names; any other one is gone through.
      by_cases hrest : rest = []
      · subst hrest
        exact ⟨_, .link (links + 1) hname.name hget rfl, by simp⟩
      · obtain ⟨named, h, hobject⟩ := ih hd
        exact ⟨named, .follow hname.name hget (absurd · hrest) h, hobject⟩
  | link links hname hget hstops => cases hstops
  | leaf links hname hget hdirectory hlink =>
      exact ⟨_, .leaf links hname.name hget hdirectory hlink, by simp⟩

/-! ## Paths given as text -/

/-- Holds of a text that can be walked at all. -/
structure IsWalkable (path : String) : Prop where
  noNull : holdsNull path = false
  ne_empty : path ≠ ""
  short : path.utf8ByteSize ≤ longestPath

instance : Decidable (IsWalkable path) :=
  decidable_of_iff (holdsNull path = false ∧ path ≠ "" ∧ path.utf8ByteSize ≤ longestPath)
    ⟨fun ⟨h, h', h''⟩ ↦ ⟨h, h', h''⟩, fun ⟨h, h', h''⟩ ↦ ⟨h, h', h''⟩⟩

theorem locate_eq_ok_iff : s.locate here purpose path = .ok d ↔
    IsWalkable path ∧ Arrives s purpose linkLimit (origin here path) (segments path) d := by
  rw [← walk_eq_ok_iff, locate]
  constructor
  · intro h
    split at h
    · cases h
    next hnull =>
    split at h
    · cases h
    next hempty =>
    split at h
    · cases h
    next hlong =>
    cases hwalk : s.walk purpose linkLimit (origin here path) (segments path) with
    | error e =>
        rw [hwalk] at h
        cases h
    | ok found =>
        rw [hwalk] at h
        cases h
        exact ⟨⟨by simpa using hnull, hempty, Nat.le_of_not_lt hlong⟩, rfl⟩
  · rintro ⟨hpath, hwalk⟩
    rw [if_neg (by simp [hpath.noNull]), if_neg hpath.ne_empty, if_neg (Nat.not_lt.2 hpath.short),
      hwalk]
    rfl

/-- Holds of a text that can be walked, with the names that it is made of. -/
def Spells (path : String) (names : List String) : Prop :=
  IsWalkable path ∧ segments path = names

instance : Decidable (Spells path names) := inferInstanceAs (Decidable (_ ∧ _))

/-- From the root, a path is walked as it is spelled. -/
theorem locate_of_walk (hpath : Spells path names)
    (h : s.walk purpose linkLimit [] names = .ok d) : s.locate [] purpose path = .ok d := by
  have horigin : origin [] path = [] := by simp [origin]
  rw [locate_eq_ok_iff, horigin, hpath.2]
  exact ⟨hpath.1, walk_eq_ok_iff.1 h⟩

theorem locate_of_grows (hgrows : s.Grows t)
    (h : s.locate here purpose path = .ok (.object place object)) :
    ∃ later, t.locate here purpose path = .ok (.object place later) ∧
      later.outline = object.outline := by
  obtain ⟨hpath, h⟩ := locate_eq_ok_iff.1 h
  obtain ⟨later, h, hsame⟩ := h.of_grows hgrows
  exact ⟨later, locate_eq_ok_iff.2 ⟨hpath, h⟩, hsame⟩

theorem locate_directory_of_grows (hgrows : s.Grows t)
    (h : s.locate here purpose path = .ok (.object place .directory)) :
    t.locate here purpose path = .ok (.object place .directory) := by
  obtain ⟨later, h, hsame⟩ := locate_of_grows hgrows h
  rw [h, eq_directory_of_outline hsame]

theorem get?_of_locate_file (h : s.locate here purpose path = .ok (.object place object))
    (hfile : object.isFile = true) : s.get? place = some object := by
  refine (locate_eq_ok_iff.1 h).2.get? ?_
  rintro rfl
  cases hfile

theorem look_eq_ok_iff : s.look here path = .ok (some (place, object)) ↔
    s.locate here .look path = .ok (.object place object) := by
  constructor
  · intro h
    rw [look] at h
    split at h
    · next hlocate =>
        cases h
        exact hlocate
    · cases h
    · cases h
  · intro h
    rw [look, h]

theorem isDirectory_eq_true_iff : s.isDirectory here path = .ok true ↔
    ∃ place, s.locate here .look path = .ok (.object place .directory) := by
  simp only [← look_eq_ok_iff, isDirectory]
  cases s.look here path with
  | error e => simp [Except.map]
  | ok found => rcases found with _ | ⟨there, object⟩ <;> simp [Except.map]

theorem isDirectory_of_walk (hpath : Spells path names)
    (h : s.walk .look linkLimit [] names = .ok (.object place .directory)) :
    s.isDirectory [] path = .ok true :=
  isDirectory_eq_true_iff.2 ⟨place, locate_of_walk hpath h⟩

theorem isDirectory_of_grows (hgrows : s.Grows t) (h : s.isDirectory here path = .ok true) :
    t.isDirectory here path = .ok true := by
  obtain ⟨place, h⟩ := isDirectory_eq_true_iff.1 h
  exact isDirectory_eq_true_iff.2 ⟨place, locate_directory_of_grows hgrows h⟩

theorem file?_eq_some_iff : s.file? here path = .ok (some place) ↔
    ∃ object, object.isFile = true ∧ s.locate here .look path = .ok (.object place object) := by
  simp only [← look_eq_ok_iff, file?]
  cases s.look here path with
  | error e => simp [Except.map]
  | ok found =>
      rcases found with _ | ⟨there, object⟩
      · simp [Except.map]
      · constructor
        · intro h
          obtain ⟨found, hfound, rfl⟩ := Option.map_eq_some_iff.1 (Except.ok.inj h)
          obtain ⟨hsame, hfile⟩ := Option.filter_eq_some_iff.1 hfound
          obtain rfl := Option.some.inj hsame
          exact ⟨object, hfile, rfl⟩
        · rintro ⟨other, hfile, hsame⟩
          obtain ⟨rfl, rfl⟩ := Prod.mk.inj (Option.some.inj (Except.ok.inj hsame))
          exact congrArg Except.ok (by simp [Option.filter, hfile])

theorem get?_of_file? (h : s.file? here path = .ok (some place)) :
    ∃ content executable, s.get? place = some (.file content executable) := by
  obtain ⟨object, hfile, hlocate⟩ := file?_eq_some_iff.1 h
  have hget := get?_of_locate_file hlocate hfile
  cases object with
  | file content executable => exact ⟨content, executable, hget⟩
  | directory | link | device => cases hfile

theorem file?_of_walk (hpath : Spells path names)
    (h : s.walk .look linkLimit [] names = .ok (.object place object))
    (hfile : object.isFile = true) : s.file? [] path = .ok (some place) :=
  file?_eq_some_iff.2 ⟨object, hfile, locate_of_walk hpath h⟩

theorem file?_of_grows (hgrows : s.Grows t) (h : s.file? here path = .ok (some place)) :
    t.file? here path = .ok (some place) := by
  obtain ⟨object, hfile, h⟩ := file?_eq_some_iff.1 h
  obtain ⟨later, h, hsame⟩ := locate_of_grows hgrows h
  exact file?_eq_some_iff.2 ⟨later, (isFile_of_outline hsame).trans hfile, h⟩

end Store

end WixAuthoring
