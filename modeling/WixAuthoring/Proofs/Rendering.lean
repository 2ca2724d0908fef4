import WixAuthoring.Build
import WixAuthoring.Proofs.Actions
import WixAuthoring.Proofs.Failures
import WixAuthoring.Proofs.Sources
import WixAuthoring.Proofs.Writing

namespace WixAuthoring

/-!
# Rendering into a store

A source is rendered from the files of the machine and written among them. Writing takes no file
away, so that the same source is rendered and written again, whatever has been written.
-/

/-- What a machine has become when its files have grown and it still works at the same place. -/
structure Machine.Continues (m m' : Machine) : Prop where
  grows : m.store.Grows m'.store
  here_eq : m'.here = m.here

namespace Machine

variable {m m' : Machine}

theorem Continues.refl (m : Machine) : m.Continues m := ⟨Store.Grows.refl _, rfl⟩

theorem Continues.trans {m'' : Machine} (h : m.Continues m') (h' : m'.Continues m'') :
    m.Continues m'' :=
  ⟨h.grows.trans h'.grows, h'.here_eq.trans h.here_eq⟩

theorem Continues.save {p : Path} {text : String} {r : Except Failure Path}
    (h : save p text m = (r, m')) : m.Continues m' := by
  rw [save_apply] at h
  rcases hwrite : Disk.write m.here p (Utf8.encode text) m.store with ⟨_ | _, s⟩ <;>
    rw [hwrite] at h <;> obtain ⟨-, rfl⟩ := Prod.mk.inj h <;>
    exact ⟨Disk.rewrite_grows hwrite, rfl⟩

end Machine

namespace Build

variable {m m' : Machine} {p : Package} {root out path : Path} {check : Bool} {text : String}

theorem render_apply (p : Package) (root : Path) (check : Bool) (m : Machine) :
    render p root check m = (Source.text p (fileSource m root check), m) := rfl

theorem render_of_text (h : Source.text p (fileSource m root check) = .ok text) :
    render p root check m = (Except.ok text, m) := by
  rw [render_apply, h]

theorem findTools_apply (directory : Option Path) (m : Machine) :
    findTools directory m =
      (Toolchain.find m.store m.here m.onWindows m.environment directory, m) := rfl

theorem writeSource_apply (p : Package) (root out : Path) (check : Bool) (m : Machine) :
    writeSource p root out check m = match Source.text p (fileSource m root check) with
      | .ok text => Machine.save (outputPath out p ".wxs") text m
      | .error e => (Except.error e, m) := by
  rw [writeSource, Action.bind_apply, render_apply]
  rcases Source.text p (fileSource m root check) with _ | _ <;> rfl

theorem fileSource_extends (h : m.Continues m') (root : Path) (check : Bool) :
    (fileSource m' root check).Extends (fileSource m root check) := by
  rw [fileSource, fileSource]
  split
  · rw [h.here_eq]
    exact FileSource.extends_checked h.grows m.here root
  · exact ⟨rfl, fun _ _ hfound ↦ hfound⟩

theorem text_of_continues (h : m.Continues m')
    (htext : Source.text p (fileSource m root check) = .ok text) :
    Source.text p (fileSource m' root check) = .ok text :=
  Source.text_of_extends (fileSource_extends h root check) htext

theorem writeSource_eq_ok (h : writeSource p root out check m = (Except.ok path, m')) :
    path = outputPath out p ".wxs" ∧ ∃ text s,
      Source.text p (fileSource m root check) = .ok text ∧
      Disk.write m.here path (Utf8.encode text) m.store = (Except.ok (), s) ∧
      m' = m.withStore s := by
  rw [writeSource_apply] at h
  cases htext : Source.text p (fileSource m root check) with
  | error e =>
      rw [htext] at h
      cases (Prod.mk.inj h).1
  | ok text =>
      rw [htext] at h
      obtain ⟨rfl, s, hwrite, hm⟩ := Machine.save_eq_ok h
      exact ⟨rfl, text, s, rfl, hwrite, hm⟩

theorem writeSource_continues {r : Except Failure Path}
    (h : writeSource p root out check m = (r, m')) : m.Continues m' := by
  rw [writeSource_apply] at h
  cases htext : Source.text p (fileSource m root check) with
  | error e =>
      rw [htext] at h
      obtain ⟨-, rfl⟩ := Prod.mk.inj h
      exact .refl m
  | ok text =>
      rw [htext] at h
      exact .save h

theorem writeSource_of_write {s : Store}
    (htext : Source.text p (fileSource m root check) = .ok text)
    (hwrite : Disk.write m.here (outputPath out p ".wxs") (Utf8.encode text) m.store =
      (Except.ok (), s)) :
    writeSource p root out check m = (Except.ok (outputPath out p ".wxs"), m.withStore s) := by
  rw [writeSource_apply, htext]
  exact Machine.save_of_write hwrite

/-- Writing a source again changes nothing. -/
theorem writeSource_writeSource (h : writeSource p root out check m = (Except.ok path, m')) :
    writeSource p root out check m' = (Except.ok path, m') := by
  have hcontinues := writeSource_continues h
  obtain ⟨rfl, text, s, htext, hwrite, rfl⟩ := writeSource_eq_ok h
  exact writeSource_of_write (text_of_continues hcontinues htext) (Disk.write_write hwrite)

/-! ## Mistakes in the configuration -/

/-- Writing never finds a mistake in the configuration: it is found by rendering, or not at all. -/
theorem writeSource_eq_configuration {e : ConfigurationError}
    (h : writeSource p root out check m = (Except.error (.configuration e), m')) :
    m' = m ∧ Source.text p (fileSource m root check) = .error (.configuration e) := by
  rw [writeSource_apply] at h
  cases htext : Source.text p (fileSource m root check) with
  | error f =>
      rw [htext] at h
      obtain ⟨hf, rfl⟩ := Prod.mk.inj h
      exact ⟨rfl, congrArg Except.error (Except.error.inj hf)⟩
  | ok text =>
      rw [htext] at h
      obtain ⟨f, s, hf, -⟩ := Machine.save_eq_error h
      exact absurd hf.symm (Machine.writeFailure_ne_configuration _ _ e)

theorem writeSource_ne_commandFailed {e : Failure}
    (h : writeSource p root out check m = (Except.error e, m')) (command : List String)
    (outcome : Outcome) : e ≠ .commandFailed command outcome := by
  rw [writeSource_apply] at h
  cases htext : Source.text p (fileSource m root check) with
  | error f =>
      rw [htext] at h
      rw [← Except.error.inj (Prod.mk.inj h).1]
      exact (Source.text_noCommandFails p (fileSource_noCommandFails m root check)).ne htext _ _
  | ok text =>
      rw [htext] at h
      obtain ⟨f, s, rfl, -⟩ := Machine.save_eq_error h
      exact Machine.writeFailure_ne_commandFailed _ _ _ _

end Build

end WixAuthoring
