import WixAuthoring.Proofs.Actions
import WixAuthoring.Proofs.Growth
import WixAuthoring.Store.Disk

namespace WixAuthoring

/-!
# Writing changes one file

Writing makes the directories on the way that are missing, and changes the file that the path leads
to. It changes nothing else, and writing the same again changes nothing at all.
-/

def Path.IsAbove (q p : Path) : Prop := q.anchor = p.anchor ∧ q.parts <+: p.parts

namespace Store

variable {s t u : Store} {here place : Location} {path : String} {p q : Path} {content : List UInt8}

/-- Holds when all that is new are directories, each at a path above another one or at that path. -/
def MakesDirectories (here : Location) (p : Path) (s t : Store) : Prop :=
  ∀ place, t.get? place = s.get? place ∨
    s.get? place = none ∧ t.get? place = some .directory ∧
      ∃ q : Path, q.IsAbove p ∧ t.locate here .look q.text = .ok (.object place .directory)

theorem MakesDirectories.refl (here : Location) (p : Path) (s : Store) :
    MakesDirectories here p s s := fun _ ↦ .inl rfl

theorem MakesDirectories.grows (h : MakesDirectories here p s t) : s.Grows t := by
  intro place object hget
  rcases h place with hsame | ⟨hnone, -⟩
  · exact ⟨object, hsame.trans hget, rfl⟩
  · rw [hnone] at hget
    cases hget

theorem MakesDirectories.trans (hst : MakesDirectories here p s t)
    (htu : MakesDirectories here p t u) : MakesDirectories here p s u := by
  intro place
  rcases htu place with hsame | ⟨hnone, hmade⟩
  · rcases hst place with hsame' | ⟨hnone, hmade, q, hq, hleads⟩
    · exact .inl (hsame.trans hsame')
    · exact .inr ⟨hnone, hsame.trans hmade, q, hq, locate_directory_of_grows htu.grows hleads⟩
  · rcases hst place with hsame | ⟨hnone', hmade', -⟩
    · exact .inr ⟨hsame ▸ hnone, hmade⟩
    · rw [hmade'] at hnone
      cases hnone

theorem MakesDirectories.mono {q : Path} (hq : q.IsAbove p) (h : MakesDirectories here q s t) :
    MakesDirectories here p s t := by
  intro place
  rcases h place with hsame | ⟨hnone, hmade, r, hr, hleads⟩
  · exact .inl hsame
  · exact .inr ⟨hnone, hmade, r, ⟨hr.1.trans hq.1, hr.2.trans hq.2⟩, hleads⟩

/-- Making directories leaves all that can be read as it is. -/
theorem MakesDirectories.read (h : MakesDirectories here p s t)
    (hread : s.read here path = .ok content) : t.read here path = .ok content := by
  rw [Store.read] at hread
  split at hread
  · cases hread
  · cases hread
  · next place found executable hlocate =>
      obtain rfl := Except.ok.inj hread
      obtain ⟨later, hlater, hsame⟩ := locate_of_grows h.grows hlocate
      obtain ⟨now, rfl⟩ := StoreObject.eq_file_of_outline hsame
      have hold := get?_of_locate_file hlocate rfl
      have hnow := get?_of_locate_file hlater rfl
      rcases h place with hkept | ⟨hnone, -⟩
      · rw [hnow, hold] at hkept
        rw [Store.read, hlater, Option.some.inj hkept]
      · rw [hold] at hnone
        cases hnone
  · cases hread
  · cases hread
  · next place hlocate =>
      obtain ⟨later, hlater, hsame⟩ := locate_of_grows h.grows hlocate
      rw [Store.read, hlater, StoreObject.eq_device_of_outline hsame]
      exact hread

/-- A location at which a write to a path ends, with what the file there holds. A file that is not
there yet is empty. -/
inductive Opens (s : Store) (here : Location) (path : String) :
    Location → List UInt8 → Bool → Prop
  | fresh {place : Location} (h : s.locate here .write path = .ok (.vacant place)) :
      Opens s here path place [] false
  | old {place : Location} {content : List UInt8} {executable : Bool}
      (h : s.locate here .write path = .ok (.object place (.file content executable))) :
      Opens s here path place content executable

variable {executable : Bool}

theorem Opens.get? (h : s.Opens here path place content executable) :
    s.get? place = none ∧ content = [] ∨ s.get? place = some (.file content executable) := by
  cases h with
  | fresh h => exact .inl ⟨(locate_eq_ok_iff.1 h).2.get?_eq_none, rfl⟩
  | old h => exact .inr (get?_of_locate_file h rfl)

/-- What can be read at a path is what is opened there. -/
theorem Opens.eq_of_read (h : s.Opens here path place content executable) {found : List UInt8}
    (hread : s.read here path = .ok found) : found = content := by
  cases h with
  | fresh h =>
      obtain ⟨hpath, h⟩ := locate_eq_ok_iff.1 h
      rw [Store.read, locate_eq_ok_iff.2 ⟨hpath, h.look (by simp)⟩] at hread
      cases hread
  | old h =>
      obtain ⟨hpath, h⟩ := locate_eq_ok_iff.1 h
      rw [Store.read, locate_eq_ok_iff.2 ⟨hpath, h.look (by simp)⟩] at hread
      exact (Except.ok.inj hread).symm

theorem Opens.place_ne (h : s.Opens here path place content executable) : place ≠ [] := by
  rintro rfl
  rcases h.get? with ⟨hget, -⟩ | hget <;> simp at hget

theorem Opens.grows_put (h : s.Opens here path place content executable)
    (new : List UInt8) : s.Grows (s.put place (.file new executable)) := by
  refine Grows.put h.place_ne fun old hold ↦ ?_
  rcases h.get? with ⟨hget, -⟩ | hget
  · rw [hget] at hold
    cases hold
  · rw [hget] at hold
    cases hold
    rfl

/-- Making directories leaves what is opened as it was before. -/
theorem Opens.get?_of_makes {s₀ : Store} {p : Path} (h : s.Opens here path place content executable)
    (hmakes : MakesDirectories here p s₀ s) :
    s₀.get? place = none ∧ content = [] ∨ s₀.get? place = some (.file content executable) := by
  rcases hmakes place with hsame | ⟨-, hmade, -⟩
  · exact hsame ▸ h.get?
  · rcases h.get? with ⟨hget, -⟩ | hget <;> rw [hmade] at hget <;> cases hget

/-- What was opened for writing is there to be looked at and to be opened again. -/
theorem Opens.locate_put (h : s.Opens here path place content executable) (new : List UInt8) :
    (s.put place (.file new executable)).locate here .write path =
      .ok (.object place (.file new executable)) := by
  have hget := get?_put_self s h.place_ne (.file new executable)
  cases h with
  | fresh hlocate =>
      obtain ⟨hpath, hvacant⟩ := locate_eq_ok_iff.1 hlocate
      exact locate_eq_ok_iff.2
        ⟨hpath, hvacant.of_vacant ((Opens.fresh hlocate).grows_put new) hget (by simp)⟩
  | old hlocate =>
      obtain ⟨later, hlater, hsame⟩ :=
        locate_of_grows ((Opens.old hlocate).grows_put new) hlocate
      obtain ⟨now, rfl⟩ := StoreObject.eq_file_of_outline hsame
      have hnow := get?_of_locate_file hlater rfl
      rw [hget] at hnow
      rw [hlater, Option.some.inj hnow]

theorem Opens.locate_look_put (h : s.Opens here path place content executable) (new : List UInt8) :
    (s.put place (.file new executable)).locate here .look path =
      .ok (.object place (.file new executable)) := by
  obtain ⟨hpath, hwrite⟩ := locate_eq_ok_iff.1 (h.locate_put new)
  exact locate_eq_ok_iff.2 ⟨hpath, hwrite.look (by simp)⟩

theorem put_put_self (s : Store) (place : Location) (object : StoreObject) :
    (s.put place object).put place object = s.put place object := by
  simp [put, erase]

/-- Holds when a path leads to a file with some content, or to a device, which may have been given
it. -/
def Took (s : Store) (here : Location) (path : String) (content : List UInt8) : Prop :=
  ∃ place object, s.locate here .look path = .ok (.object place object) ∧
    ((∃ executable, object = .file content executable) ∨ object = .device)

def LeadsToDevice (s : Store) (here : Location) (path : String) : Prop :=
  ∃ place, s.locate here .look path = .ok (.object place .device)

/-- Holds when two paths lead to one object. -/
def Meet (s : Store) (here : Location) (path path' : String) : Prop :=
  ∃ place object, s.locate here .look path = .ok (.object place object) ∧
    s.locate here .look path' = .ok (.object place object)

theorem Took.read (h : s.Took here path content) :
    s.LeadsToDevice here path ∨ s.read here path = .ok content := by
  obtain ⟨place, object, hlocate, ⟨executable, rfl⟩ | rfl⟩ := h
  · exact .inr (by rw [Store.read, hlocate])
  · exact .inl ⟨place, hlocate⟩

end Store

namespace Disk

open Store

variable {s t : Store} {here place : Location} {path : String} {p : Path}

/-! ## Directories -/

theorem createDirectory_apply (here : Location) (path : String) (s : Store) :
    createDirectory here path s = match s.locate here .name path with
      | .error e => (Except.error e, s)
      | .ok (.object _ _) => (Except.error (.fault .alreadyThere path), s)
      | .ok (.vacant place) => (Except.ok (), s.put place .directory) := by
  rw [createDirectory, Action.bind_apply, locate]
  cases s.locate here .name path with
  | error e => rfl
  | ok d => cases d <;> rfl

theorem keepDirectory_of_error {e : StoreError}
    (h : createDirectory here path s = (Except.error e, s)) :
    ∃ r, keepDirectory here path s = (r, s) ∧ (r = .ok () → s.isDirectory here path = .ok true) := by
  have hasks (error : StoreError) : (do
        if ← isDirectory here path then pure () else throw error : Disk Unit) s =
      match s.isDirectory here path with
        | .error e => (Except.error e, s)
        | .ok false => (Except.error error, s)
        | .ok true => (Except.ok (), s) := by
    rw [Action.bind_apply, isDirectory]
    rcases s.isDirectory here path with _ | _ | _ <;> rfl
  rw [keepDirectory, Action.tryCatch_apply, h]
  dsimp only
  split
  · exact ⟨_, rfl, fun hok ↦ by cases hok⟩
  · exact ⟨_, rfl, fun hok ↦ by cases hok⟩
  · rw [hasks]
    rcases s.isDirectory here path with _ | _ | _
    · exact ⟨_, rfl, fun hok ↦ by cases hok⟩
    · exact ⟨_, rfl, fun hok ↦ by cases hok⟩
    · exact ⟨_, rfl, fun _ ↦ rfl⟩

/-- A directory is made at a vacant location, or nothing is changed. When that is no failure, the
path then leads to a directory. -/
theorem keepDirectory_cases (here : Location) (path : String) (s : Store) :
    (∃ place, s.locate here .name path = .ok (.vacant place) ∧
      keepDirectory here path s = (Except.ok (), s.put place .directory)) ∨
    ∃ r, keepDirectory here path s = (r, s) ∧ (r = .ok () → s.isDirectory here path = .ok true) := by
  have hcreate := createDirectory_apply here path s
  cases hlocate : s.locate here .name path with
  | error e =>
      rw [hlocate] at hcreate
      exact .inr (keepDirectory_of_error hcreate)
  | ok d =>
      cases d with
      | object place object =>
          rw [hlocate] at hcreate
          exact .inr (keepDirectory_of_error hcreate)
      | vacant place =>
          rw [hlocate] at hcreate
          exact .inl ⟨place, rfl, by rw [keepDirectory, Action.tryCatch_apply, hcreate]⟩

theorem keepDirectory_of_isDirectory (h : s.isDirectory here path = .ok true) :
    keepDirectory here path s = (Except.ok (), s) := by
  obtain ⟨place, hlook⟩ := isDirectory_eq_true_iff.1 h
  obtain ⟨hpath, hlook⟩ := locate_eq_ok_iff.1 hlook
  obtain ⟨named, hnamed, hobject⟩ := hlook.exists_name
  have hlocate := locate_eq_ok_iff.2 ⟨hpath, hnamed⟩
  cases named with
  | vacant place => exact absurd rfl (hobject place)
  | object place object =>
      rw [keepDirectory, Action.tryCatch_apply, createDirectory_apply, hlocate]
      dsimp only
      rw [Action.bind_apply, isDirectory, h]
      rfl

theorem locate_put_directory (h : s.locate here .name path = .ok (.vacant place)) :
    s.Grows (s.put place .directory) ∧
      (s.put place .directory).locate here .look path = .ok (.object place .directory) := by
  obtain ⟨hpath, hvacant⟩ := locate_eq_ok_iff.1 h
  have hnone := hvacant.get?_eq_none
  have hplace : place ≠ [] := by
    rintro rfl
    cases hnone
  have hgrows : s.Grows (s.put place .directory) :=
    Grows.put hplace fun old hold ↦ by
      rw [hnone] at hold
      cases hold
  have hget := get?_put_self s hplace .directory
  exact ⟨hgrows, locate_eq_ok_iff.2 ⟨hpath, (hvacant.of_vacant hgrows hget (by simp)).look (by simp)⟩⟩

theorem keepDirectory_makes {r : Except StoreError Unit}
    (h : keepDirectory here p.text s = (r, t)) :
    MakesDirectories here p s t ∧ (r = .ok () → t.isDirectory here p.text = .ok true) := by
  rcases keepDirectory_cases here p.text s with ⟨place, hlocate, hkeep⟩ | ⟨r', hkeep, hr⟩
  · obtain ⟨-, rfl⟩ := Prod.mk.inj (h.symm.trans hkeep)
    obtain ⟨-, hlook⟩ := locate_put_directory hlocate
    refine ⟨fun other ↦ ?_, fun _ ↦ isDirectory_eq_true_iff.2 ⟨place, hlook⟩⟩
    by_cases hother : other = place
    · subst hother
      have hnone := (locate_eq_ok_iff.1 hlocate).2.get?_eq_none
      refine .inr ⟨hnone, ?_, p, ⟨rfl, List.prefix_rfl⟩, hlook⟩
      exact get?_put_self s (by rintro rfl; cases hnone) .directory
    · exact .inl (get?_put_ne s hother .directory)
  · obtain ⟨rfl, rfl⟩ := Prod.mk.inj (h.symm.trans hkeep)
    exact ⟨.refl here p _, hr⟩

/-- The names come innermost first, so the paths above one are those of the ends of the list. -/
theorem ensureParts_makes (here : Location) (anchor : Anchor) (names : List String) (s : Store) :
    ∃ r t, ensureParts here anchor names s = (r, t) ∧
      MakesDirectories here ⟨anchor, names.reverse⟩ s t ∧
      (r = .ok () → t.isDirectory here (Path.text ⟨anchor, names.reverse⟩) = .ok true) := by
  induction names generalizing s with
  | nil => exact ⟨_, _, rfl, keepDirectory_makes rfl⟩
  | cons name outer ih =>
      have habove : Path.IsAbove ⟨anchor, outer.reverse⟩ ⟨anchor, (name :: outer).reverse⟩ :=
        ⟨rfl, by simp⟩
      rw [ensureParts, Action.tryCatch_apply]
      rcases hkeep : keepDirectory here (Path.text ⟨anchor, (name :: outer).reverse⟩) s with ⟨r, t⟩
      obtain ⟨hmakes, hthere⟩ := keepDirectory_makes hkeep
      cases r with
      | ok a => exact ⟨_, _, rfl, hmakes, fun _ ↦ hthere rfl⟩
      | error e =>
          dsimp only
          split
          · obtain ⟨r', u, houter, houterMakes, -⟩ := ih t
            rw [Action.bind_apply, houter]
            cases r' with
            | error e' =>
                exact ⟨_, _, rfl, hmakes.trans (houterMakes.mono habove), fun hok ↦ by cases hok⟩
            | ok a =>
                dsimp only
                rcases hagain : keepDirectory here (Path.text ⟨anchor, (name :: outer).reverse⟩) u
                  with ⟨r, v⟩
                obtain ⟨hlast, hthere⟩ := keepDirectory_makes hagain
                exact ⟨_, _, rfl, (hmakes.trans (houterMakes.mono habove)).trans hlast, hthere⟩
          · exact ⟨_, _, rfl, hmakes, fun hok ↦ by cases hok⟩

theorem ensureDirectory_makes (here : Location) (p : Path) (s : Store) :
    ∃ r t, ensureDirectory here p s = (r, t) ∧ MakesDirectories here p s t ∧
      (r = .ok () → t.isDirectory here p.text = .ok true) := by
  simpa [ensureDirectory] using ensureParts_makes here p.anchor p.parts.reverse s

theorem ensureDirectory_eq_ok (h : ensureDirectory here p s = (Except.ok (), t)) :
    MakesDirectories here p s t ∧ t.isDirectory here p.text = .ok true := by
  obtain ⟨r, u, hensure, hmakes, hthere⟩ := ensureDirectory_makes here p s
  obtain ⟨rfl, rfl⟩ := Prod.mk.inj (h.symm.trans hensure)
  exact ⟨hmakes, hthere rfl⟩

theorem ensureDirectory_of_isDirectory (h : s.isDirectory here p.text = .ok true) :
    ensureDirectory here p s = (Except.ok (), s) := by
  have hkeep := keepDirectory_of_isDirectory h
  obtain ⟨anchor, parts⟩ := p
  rw [ensureDirectory]
  rcases hparts : parts.reverse with _ | ⟨name, outer⟩
  · obtain rfl : parts = [] := by simpa using hparts
    exact hkeep
  · rw [ensureParts, Action.tryCatch_apply, ← hparts, List.reverse_reverse, hkeep]

/-! ## Files -/

variable {change : List UInt8 → List UInt8}

/-- The file that a path leads to is changed, or nothing is. Nothing changes without a failure
when the path leads to a device. -/
theorem revise_cases (here : Location) (path : String) (change : List UInt8 → List UInt8)
    (s : Store) :
    (∃ place content executable, s.Opens here path place content executable ∧
      revise here path change s =
        (Except.ok (), s.put place (.file (change content) executable))) ∨
    ∃ r, revise here path change s = (r, s) ∧
      (r = .ok () → ∃ place, s.locate here .write path = .ok (.object place .device)) := by
  rw [revise, Action.bind_apply, locate]
  cases hlocate : s.locate here .write path with
  | error e => exact .inr ⟨_, rfl, fun hok ↦ by cases hok⟩
  | ok d =>
      cases d with
      | vacant place => exact .inl ⟨place, [], false, .fresh hlocate, rfl⟩
      | object place object =>
          cases object with
          | file content executable =>
              exact .inl ⟨place, content, executable, .old hlocate, rfl⟩
          | directory => exact .inr ⟨_, rfl, fun hok ↦ by cases hok⟩
          | link target => exact .inr ⟨_, rfl, fun hok ↦ by cases hok⟩
          | device => exact .inr ⟨_, rfl, fun _ ↦ ⟨place, rfl⟩⟩

theorem revise_of_opens {content : List UInt8} {executable : Bool}
    (h : s.Opens here path place content executable) (change : List UInt8 → List UInt8) :
    revise here path change s =
      (Except.ok (), s.put place (.file (change content) executable)) := by
  rw [revise, Action.bind_apply, locate]
  cases h with
  | fresh h | old h =>
      rw [h]
      rfl

/-! ## A file at the end of a path -/

/-- What writing and appending have in common. -/
def rewrite (here : Location) (p : Path) (change : List UInt8 → List UInt8) : Disk Unit := do
  ensureDirectory here p.parent
  revise here p.text change

theorem write_eq_rewrite (here : Location) (p : Path) (content : List UInt8) :
    write here p content = rewrite here p fun _ ↦ content := rfl

theorem append_eq_rewrite (here : Location) (p : Path) (content : List UInt8) :
    append here p content = rewrite here p fun old ↦ old ++ content := rfl

/-- First directories are made, then the file is changed or nothing more is done. -/
theorem rewrite_cases (here : Location) (p : Path) (change : List UInt8 → List UInt8) (s : Store) :
    ∃ u, MakesDirectories here p.parent s u ∧
      ((∃ place content executable, u.isDirectory here p.parent.text = .ok true ∧
        u.Opens here p.text place content executable ∧ rewrite here p change s =
          (Except.ok (), u.put place (.file (change content) executable))) ∨
      ∃ r, rewrite here p change s = (r, u) ∧
        (r = .ok () → u.isDirectory here p.parent.text = .ok true ∧
          ∃ place, u.locate here .write p.text = .ok (.object place .device))) := by
  obtain ⟨r, u, hensure, hmakes, hthere⟩ := ensureDirectory_makes here p.parent s
  refine ⟨u, hmakes, ?_⟩
  rw [rewrite, Action.bind_apply, hensure]
  cases r with
  | error e => exact .inr ⟨_, rfl, fun hok ↦ by cases hok⟩
  | ok a =>
      rcases revise_cases here p.text change u with
        ⟨place, content, executable, hopens, hrevise⟩ | ⟨r, hrevise, hdevice⟩
      · exact .inl ⟨place, content, executable, hthere rfl, hopens, hrevise⟩
      · exact .inr ⟨r, hrevise, fun hok ↦ ⟨hthere rfl, hdevice hok⟩⟩

theorem rewrite_grows {r : Except StoreError Unit} (h : rewrite here p change s = (r, t)) :
    s.Grows t := by
  obtain ⟨u, hmakes, ⟨place, content, executable, -, hopens, hrewrite⟩ | ⟨r', hrewrite, -⟩⟩ :=
    rewrite_cases here p change s
  · obtain ⟨-, rfl⟩ := Prod.mk.inj (h.symm.trans hrewrite)
    exact hmakes.grows.trans (hopens.grows_put _)
  · obtain ⟨-, rfl⟩ := Prod.mk.inj (h.symm.trans hrewrite)
    exact hmakes.grows

/-- All that differs afterwards are directories that were missing and the file at the path. -/
theorem rewrite_frame {r : Except StoreError Unit} (h : rewrite here p change s = (r, t))
    (place : Location) :
    t.get? place = s.get? place ∨
    (s.get? place = none ∧ t.get? place = some .directory ∧
      ∃ q : Path, q.IsAbove p.parent ∧ t.locate here .look q.text = .ok (.object place .directory)) ∨
    ∃ content executable,
      (s.get? place = none ∧ content = [] ∨ s.get? place = some (.file content executable)) ∧
      t.locate here .look p.text = .ok (.object place (.file (change content) executable)) := by
  obtain ⟨u, hmakes, ⟨there, content, executable, -, hopens, hrewrite⟩ | ⟨r', hrewrite, -⟩⟩ :=
    rewrite_cases here p change s
  · obtain ⟨-, rfl⟩ := Prod.mk.inj (h.symm.trans hrewrite)
    have hput := hopens.grows_put (change content)
    by_cases hplace : place = there
    · subst hplace
      have hbefore := hopens.get?_of_makes hmakes
      exact .inr (.inr ⟨content, executable, hbefore, hopens.locate_look_put _⟩)
    · rw [get?_put_ne u hplace]
      rcases hmakes place with hsame | ⟨hnone, hmade, q, hq, hleads⟩
      · exact .inl hsame
      · exact .inr (.inl ⟨hnone, hmade, q, hq, locate_directory_of_grows hput hleads⟩)
  · obtain ⟨-, rfl⟩ := Prod.mk.inj (h.symm.trans hrewrite)
    rcases hmakes place with hsame | hmade
    · exact .inl hsame
    · exact .inr (.inl hmade)

variable {content : List UInt8}

theorem rewrite_of_opens (hparent : s.isDirectory here p.parent.text = .ok true) {old : List UInt8}
    {executable : Bool} (h : s.Opens here p.text place old executable)
    (change : List UInt8 → List UInt8) :
    rewrite here p change s = (Except.ok (), s.put place (.file (change old) executable)) := by
  rw [rewrite, Action.bind_of_ok (ensureDirectory_of_isDirectory hparent)]
  exact revise_of_opens h change

theorem write_of_opens (hparent : s.isDirectory here p.parent.text = .ok true) {old : List UInt8}
    {executable : Bool} (h : s.Opens here p.text place old executable) (content : List UInt8) :
    write here p content s = (Except.ok (), s.put place (.file content executable)) :=
  rewrite_of_opens hparent h _

theorem write_of_device (hparent : s.isDirectory here p.parent.text = .ok true)
    (h : s.locate here .write p.text = .ok (.object place .device)) (content : List UInt8) :
    write here p content s = (Except.ok (), s) := by
  rw [write_eq_rewrite, rewrite, Action.bind_of_ok (ensureDirectory_of_isDirectory hparent),
    revise, Action.bind_apply, locate, h]
  rfl

/-- Writing the same to the same path again changes nothing. -/
theorem write_write (h : write here p content s = (Except.ok (), t)) :
    write here p content t = (Except.ok (), t) := by
  rw [write_eq_rewrite] at h ⊢
  obtain ⟨u, -, ⟨place, old, executable, hparent, hopens, hrewrite⟩ | ⟨r, hrewrite, hdevice⟩⟩ :=
    rewrite_cases here p (fun _ ↦ content) s
  · obtain ⟨-, rfl⟩ := Prod.mk.inj (h.symm.trans hrewrite)
    have hagain := write_of_opens (isDirectory_of_grows (hopens.grows_put content) hparent)
      (.old (hopens.locate_put content)) content
    rwa [put_put_self] at hagain
  · obtain ⟨rfl, rfl⟩ := Prod.mk.inj (h.symm.trans hrewrite)
    obtain ⟨hparent, place, hlocate⟩ := hdevice rfl
    exact write_of_device hparent hlocate content

/-- A change that fails has made directories at most. -/
theorem rewrite_eq_error {e : StoreError} (h : rewrite here p change s = (Except.error e, t)) :
    MakesDirectories here p.parent s t := by
  obtain ⟨u, hmakes, ⟨place, old, executable, -, -, hrewrite⟩ | ⟨r, hrewrite, -⟩⟩ :=
    rewrite_cases here p change s
  · cases (Prod.mk.inj (h.symm.trans hrewrite)).1
  · obtain ⟨-, rfl⟩ := Prod.mk.inj (h.symm.trans hrewrite)
    exact hmakes

theorem write_took (h : write here p content s = (Except.ok (), t)) :
    t.Took here p.text content := by
  rw [write_eq_rewrite] at h
  obtain ⟨u, -, ⟨place, old, executable, -, hopens, hrewrite⟩ | ⟨r, hrewrite, hdevice⟩⟩ :=
    rewrite_cases here p (fun _ ↦ content) s
  · obtain ⟨-, rfl⟩ := Prod.mk.inj (h.symm.trans hrewrite)
    exact ⟨place, _, hopens.locate_look_put content, .inl ⟨executable, rfl⟩⟩
  · obtain ⟨rfl, rfl⟩ := Prod.mk.inj (h.symm.trans hrewrite)
    obtain ⟨-, place, hlocate⟩ := hdevice rfl
    obtain ⟨hpath, hlocate⟩ := locate_eq_ok_iff.1 hlocate
    exact ⟨place, _, locate_eq_ok_iff.2 ⟨hpath, hlocate.look (by simp)⟩, .inr rfl⟩

/-- A file that holds something still holds it when another file is changed. -/
theorem took_of_rewrite {r : Except StoreError Unit} (hs : s.Took here path content)
    (h : rewrite here p change s = (r, t)) : t.Took here path content ∨
    ∃ place old executable,
      t.locate here .look path = .ok (.object place (.file (change old) executable)) ∧
      t.locate here .look p.text = .ok (.object place (.file (change old) executable)) := by
  obtain ⟨place, object, hlocate, hobject⟩ := hs
  obtain ⟨later, hlater, hsame⟩ := locate_of_grows (rewrite_grows h) hlocate
  rcases hobject with ⟨executable, rfl⟩ | rfl
  · obtain ⟨now, rfl⟩ := StoreObject.eq_file_of_outline hsame
    have hold := get?_of_locate_file hlocate rfl
    have hnow := get?_of_locate_file hlater rfl
    -- No directory is made where there is a file, so it is unchanged or it is the one at the path.
    rcases rewrite_frame h place with hkept | ⟨hnone, -⟩ | ⟨before, x, -, hwritten⟩
    · rw [hnow, hold] at hkept
      exact .inl ⟨place, _, hlater, .inl ⟨executable, Option.some.inj hkept⟩⟩
    · rw [hold] at hnone
      cases hnone
    · have hget := get?_of_locate_file hwritten rfl
      rw [hnow] at hget
      rw [Option.some.inj hget] at hlater
      exact .inr ⟨place, before, x, hlater, hwritten⟩
  · exact .inl ⟨place, later, hlater, .inr (StoreObject.eq_device_of_outline hsame)⟩

theorem took_of_write {r : Except StoreError Unit} (hs : s.Took here path content)
    (h : write here p content s = (r, t)) : t.Took here path content := by
  rw [write_eq_rewrite] at h
  rcases took_of_rewrite hs h with htook | ⟨place, -, executable, hlocate, -⟩
  · exact htook
  · exact ⟨place, _, hlocate, .inl ⟨executable, rfl⟩⟩

/-- Only at the place that is written something else is found. -/
theorem took_or_meet {r : Except StoreError Unit} {other : List UInt8}
    (hs : s.Took here path content) (h : write here p other s = (r, t)) :
    t.Took here path content ∨ t.Meet here path p.text ∧ t.read here path = .ok other := by
  rw [write_eq_rewrite] at h
  rcases took_of_rewrite hs h with htook | ⟨place, _, _, hlocate, hmeet⟩
  · exact .inl htook
  · exact .inr ⟨⟨place, _, hlocate, hmeet⟩, by rw [Store.read, hlocate]⟩

end Disk
end WixAuthoring
