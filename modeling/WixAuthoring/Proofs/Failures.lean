import WixAuthoring.Build
import WixAuthoring.Manifest
import WixAuthoring.Proofs.Sorting

namespace WixAuthoring

/-!
# Failures without a command

Reading a manifest, looking for tools and rendering start no command, so none of them fails the way
a command does.
-/

/-- Holds of a result that is not the failure of a command. -/
def NoCommandFails {α : Type} (x : Except Failure α) : Prop :=
  ∀ command outcome, x ≠ .error (.commandFailed command outcome)

namespace NoCommandFails

variable {α β : Type}

theorem ok (a : α) : NoCommandFails (.ok a : Except Failure α) := by
  intro command outcome h
  cases h

theorem bind {x : Except Failure α} {f : α → Except Failure β} (hx : NoCommandFails x)
    (hf : ∀ a, NoCommandFails (f a)) : NoCommandFails (x >>= f) := by
  intro command outcome h
  cases x with
  | ok a => exact hf a command outcome h
  | error e =>
      obtain rfl := Except.error.inj h
      exact hx command outcome rfl

theorem store (x : Except StoreError α) : NoCommandFails (x.mapError Failure.store) := by
  intro command outcome h
  cases x <;> cases h

theorem version (x : Except VersionError α) : NoCommandFails (x.mapError Failure.version) := by
  intro command outcome h
  cases x <;> cases h

theorem configuration (e : ConfigurationError) :
    NoCommandFails (.error (.configuration e) : Except Failure α) := by
  intro command outcome h
  cases h

theorem ne {x : Except Failure α} {e : Failure} (h : NoCommandFails x) (hx : x = .error e)
    (command : List String) (outcome : Outcome) : e ≠ .commandFailed command outcome := by
  rintro rfl
  exact h command outcome hx

end NoCommandFails

open NoCommandFails

theorem Manifest.requireVersion_noCommandFails (manifest : String) (token : Option String) :
    NoCommandFails (requireVersion manifest token) := by
  cases token with
  | none => exact .configuration _
  | some token =>
      rw [requireVersion, tokenVersion]
      split
      · exact .ok _
      · exact .version (.error _)
      · split
        · exact .configuration _
        · exact .version _

theorem Toolchain.find_noCommandFails (s : Store) (here : Location) (onWindows : Bool)
    (v : Variables) (directory : Option Path) :
    NoCommandFails (find s here onWindows v directory) := by
  have hholds (directory : Path) : NoCommandFails (holdsTools s here onWindows directory) := by
    apply NoCommandFails.bind (.store _)
    intro found
    split
    · exact .store _
    · exact .ok _
  cases directory with
  | some directory =>
      apply NoCommandFails.bind (hholds directory)
      intro found
      split
      · exact .ok _
      · exact .configuration _
  | none =>
      refine NoCommandFails.bind ?_ fun found ↦ ?_
      · rw [installed?]
        split
        · exact .ok _
        · exact .bind (hholds _) fun _ ↦ .ok _
      · split
        · exact .ok _
        · split
          · exact .ok _
          · exact .configuration _

namespace Source

variable {files : FileSource} (p : Package)

theorem entries_noCommandFails (hfiles : ∀ source, NoCommandFails (files.find source))
    (parentId : String) (inherited : Option FeatureRef) (es : List Entry) :
    NoCommandFails (entries p files parentId inherited es) := by
  match es with
  | [] =>
      rw [entries]
      exact .ok _
  | e :: rest =>
      have hrest := entries_noCommandFails hfiles parentId inherited rest
      rw [entries]
      apply NoCommandFails.bind
      · cases e with
        | file f =>
            rw [entry]
            exact .bind (hfiles f.source) fun _ ↦ .ok _
        | directory name inner own id =>
            rw [entry]
            exact .bind (entries_noCommandFails hfiles _ _ inner) fun _ ↦ .ok _
        | property | environment | setProperty | customAction | feature | scalar =>
            intro command outcome h
            simp [entry] at h
      · intro found
        exact .bind hrest fun _ ↦ .ok _

theorem text_noCommandFails (hfiles : ∀ source, NoCommandFails (files.find source)) :
    NoCommandFails (text p files) := by
  have hsort : NoCommandFails (sortEntries p) := by
    rw [sortEntries_eq, checkEntries]
    intro command outcome h
    split at h <;> cases h
  have hvariables (vs : List EnvironmentVariable) (tree : List Xml.Element) :
      NoCommandFails (addVariables p.guid vs tree) := by
    intro command outcome h
    cases tree with
    | nil =>
        rw [addVariables] at h
        split at h <;> cases h
    | cons first rest => cases h
  have hlicense : NoCommandFails (licenseElements p files) := by
    rw [licenseElements]
    split
    · exact .ok _
    · exact .bind (hfiles _) fun _ ↦ .ok _
  rw [text, element]
  refine .bind (.bind hsort fun _ ↦ .bind (entries_noCommandFails p hfiles _ _ _) fun _ ↦
    .bind (hvariables _ _) fun _ ↦ .bind hlicense fun _ ↦ .ok _) fun root ↦ ?_
  intro command outcome h
  split at h <;> cases h

end Source

theorem Build.fileSource_noCommandFails (m : Machine) (root : Path) (check : Bool)
    (source : String) : NoCommandFails ((fileSource m root check).find source) := by
  intro command outcome h
  rw [FileSource.find, fileSource] at h
  split at h
  · change m.store.requireFile m.here _ = _ at h
    rw [Store.requireFile] at h
    split at h <;> cases h
  · cases h

end WixAuthoring
