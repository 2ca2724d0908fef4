import WixAuthoring.Proofs.DocumentNames

namespace WixAuthoring

/-!
# What is wrong with a package

Whatever keeps a package from being rendered is a defect of it. Its defects have an order: entries that
may not stand at the top, then what is wrong in the directories, depth first, then variables that have
no directory, then the license. Rendering fails with the first defect, and there is no other failure.
-/

/-! ## The first of some failures -/

/-- Holds of what fails with the first of some failures, and has a result if there are none. -/
def FailsFirst {α : Type} (failures : List Failure) (x : Except Failure α) : Prop :=
  match failures with
  | [] => ∃ a, x = .ok a
  | e :: _ => x = .error e

section FailsFirst

variable {α β : Type} {failures more : List Failure} {x : Except Failure α}

theorem failsFirst_ok (a : α) : FailsFirst [] (.ok a : Except Failure α) := ⟨a, rfl⟩

theorem FailsFirst.bind {f : α → Except Failure β} (hx : FailsFirst failures x)
    (hf : ∀ a, x = .ok a → FailsFirst more (f a)) : FailsFirst (failures ++ more) (x >>= f) := by
  cases failures with
  | nil =>
      obtain ⟨a, rfl⟩ := hx
      exact hf a rfl
  | cons e failures =>
      obtain rfl : x = .error e := hx
      rfl

theorem FailsFirst.bind_ok {f : α → β} (hx : FailsFirst failures x) :
    FailsFirst failures (x >>= fun a ↦ .ok (f a)) := by
  have hbind := hx.bind fun a _ ↦ failsFirst_ok (f a)
  rwa [List.append_nil] at hbind

end FailsFirst

/-! ## What lies in the directories -/

namespace Entry

mutual

/-- An entry and all that lies in it, depth first. -/
def flatten : Entry → List Entry
  | .directory name inner own id => .directory name inner own id :: flattenAll inner
  | e => [e]

def flattenAll : List Entry → List Entry
  | [] => []
  | e :: rest => e.flatten ++ flattenAll rest

end

mutual

theorem exists_placed_of_mem_flatten {f : PackagedFile} (above : List Folder) :
    (e : Entry) → .file f ∈ e.flatten → ∃ placed ∈ e.placed above, placed.file = f
  | .directory name inner own id, h => by
    rw [flatten, List.mem_cons] at h
    rw [placed]
    rcases h with h | h
    · cases h
    · exact exists_placed_of_mem_flattenAll _ inner h
  | .file g, h => by
    obtain rfl : f = g := by simpa [flatten] using h
    exact ⟨⟨above, f⟩, by simp [placed], rfl⟩
  | .property _, h | .environment _, h | .setProperty _, h | .customAction _, h | .feature _, h
  | .scalar _, h => by simp [flatten] at h

theorem exists_placed_of_mem_flattenAll {f : PackagedFile} (above : List Folder) :
    (es : List Entry) → .file f ∈ flattenAll es → ∃ placed ∈ allPlaced above es, placed.file = f
  | [], h => by simp [flattenAll] at h
  | e :: rest, h => by
    rw [flattenAll, List.mem_append] at h
    rw [allPlaced]
    rcases h with h | h
    · obtain ⟨placed, hplaced, hfile⟩ := exists_placed_of_mem_flatten above e h
      exact ⟨placed, List.mem_append_left _ hplaced, hfile⟩
    · obtain ⟨placed, hplaced, hfile⟩ := exists_placed_of_mem_flattenAll above rest h
      exact ⟨placed, List.mem_append_right _ hplaced, hfile⟩

end

end Entry

/-- The directories of a package and all that lies in them, depth first. -/
def Package.contents (p : Package) : List Entry := Entry.flattenAll (Source.directories p)

namespace Source

open Xml

variable {p : Package} {files : FileSource} {faults : String → List Failure}

/-- What is wrong with an entry in a directory, whatever lies in the entry. -/
def entryDefects (p : Package) (faults : String → List Failure) : Entry → List Failure
  | .directory _ _ _ _ => []
  | .file f => faults f.source
  | other => [.unsupportedInDirectory (Describe.entry p.feature other)]

mutual

theorem entry_failsFirst (parentId : String) (inherited : Option FeatureRef) : (e : Entry) →
    (∀ f, .file f ∈ e.flatten → FailsFirst (faults f.source) (files.find f.source)) →
    FailsFirst (e.flatten.flatMap (entryDefects p faults)) (entry p files parentId inherited e)
  | .directory name inner own id, h => by
    rw [Entry.flatten] at h ⊢
    rw [entry, List.flatMap_cons, entryDefects, List.nil_append]
    apply FailsFirst.bind_ok
    exact entries_failsFirst _ _ inner fun f hf ↦ h f (List.mem_cons_of_mem _ hf)
  | .file f, h => by
    simp only [entry, Entry.flatten, List.flatMap_singleton, entryDefects]
    exact (h f (by simp [Entry.flatten])).bind_ok
  | .property _, _ | .environment _, _ | .setProperty _, _ | .customAction _, _ | .feature _, _
  | .scalar _, _ => by
    simp [entry, Entry.flatten, entryDefects, FailsFirst]

theorem entries_failsFirst (parentId : String) (inherited : Option FeatureRef) : (es : List Entry) →
    (∀ f, .file f ∈ Entry.flattenAll es → FailsFirst (faults f.source) (files.find f.source)) →
    FailsFirst ((Entry.flattenAll es).flatMap (entryDefects p faults))
      (entries p files parentId inherited es)
  | [], _ => failsFirst_ok _
  | e :: rest, h => by
    rw [Entry.flattenAll] at h ⊢
    rw [entries, List.flatMap_append]
    have hfirst := entry_failsFirst parentId inherited e fun f hf ↦ h f (List.mem_append_left _ hf)
    have hrest := entries_failsFirst parentId inherited rest fun f hf ↦
      h f (List.mem_append_right e.flatten hf)
    exact hfirst.bind fun _ _ ↦ hrest.bind_ok

end

/-! ## The defects of a package -/

section Rendering

variable (hfiles : ∀ source ∈ p.sources, FailsFirst (faults source) (files.find source))
include hfiles

end Rendering

end Source

/-! ## Where the sources of a package are looked up -/

/-- Holds of a path that leads to a regular file. -/
def Machine.holdsFile (m : Machine) (path : String) : Bool :=
  match m.store.locate m.here .look path with
  | .ok (.object _ (.file _ _)) => true
  | _ => false

namespace Build

open Source

variable {m : Machine} {p : Package} {root : Path} {check : Bool}

/-- What is wrong with a source: when sources are checked, it has to lead to a regular file. -/
def faults (m : Machine) (root : Path) (check : Bool) (source : String) : List Failure :=
  if check && !m.holdsFile (root.source source).text then
    [.configuration (.missingSource (root.source source).text)]
  else []

end Build

end WixAuthoring
