import WixAuthoring.Proofs.Pipeline

namespace WixAuthoring

/-!
# Checked and unchecked documents

A document that is not checked gives the paths of its files as they are written down, a checked
one the places where the files are found. Nothing else tells the two apart, and what can be
rendered with checks can be rendered without them.
-/

theorem Source.text_eq_ok_iff {p : Package} {files : FileSource} {text : String} :
    Source.text p files = .ok text ↔
      ∃ root, element p files = .ok root ∧ Xml.document? root = some text := by
  rw [Source.text, bind_eq_ok_iff]
  refine exists_congr fun root ↦ and_congr_right fun _ ↦ ?_
  cases Xml.document? root with
  | none => simp
  | some t =>
      rw [Option.some.injEq]
      exact Except.ok.injEq t text ▸ Iff.rfl

namespace Build

open Xml

/-- The place of the regular file that a path leads to, written out. -/
def resolved (m : Machine) (path : String) : String :=
  match m.store.file? m.here path with
  | .ok (some place) => Location.text place
  | _ => path

theorem resolved_of_file? {m : Machine} {path : String} {place : Location}
    (h : m.store.file? m.here path = .ok (some place)) : resolved m path = Location.text place := by
  rw [resolved, h]

theorem fileSource_unchecked (m : Machine) (root : Path) :
    fileSource m root false = .unchecked root :=
  if_neg Bool.false_ne_true

theorem fileSource_resolves (m : Machine) (root : Path) :
    (fileSource m root true).Resolves (resolved m) (fileSource m root false) where
  root_eq := rfl
  place_eq path found hfound := by
    obtain ⟨place, hplace, rfl⟩ := Store.requireFile_eq_ok hfound
    exact ⟨path, rfl, (resolved_of_file? hplace).symm⟩

/-- A source that is rendered without checks depends on no files. When it can be rendered with
checks, the two documents are the same but for the paths of files: as they are written down in the
one, and in the other as the places of the regular files that they lead to. -/
theorem checked_agrees_with_unchecked (p : Package) (root : Path) :
    (∀ m m' : Machine, (render p root false m).1 = (render p root false m').1) ∧
    ∀ (m m' : Machine) (text : String), render p root true m = (Except.ok text, m') →
      ∃ checked plain plainText,
        Source.element p (fileSource m root true) = .ok checked ∧ document? checked = some text ∧
        Source.element p (fileSource m root false) = .ok plain ∧
        document? plain = some plainText ∧
        render p root false m = (Except.ok plainText, m) ∧
        checked = plain.mapPaths (resolved m) ∧
        plain.paths = p.sources.map (fun source ↦ (root.source source).text) ∧
        ∀ source ∈ p.sources, ∃ place content executable,
          m.store.file? m.here (root.source source).text = .ok (some place) ∧
          m.store.get? place = some (.file content executable) ∧
          resolved m (root.source source).text = Location.text place := by
  refine ⟨fun m m' ↦ ?_, fun m m' text h ↦ ?_⟩
  -- compared as they stand, the two sources of files would have to be walked
  · rw [render_apply, render_apply, fileSource_unchecked, fileSource_unchecked]
  · rw [render_apply] at h
    obtain ⟨checked, hchecked, htext⟩ := Source.text_eq_ok_iff.1 (Prod.mk.inj h).1
    obtain ⟨plain, hplain, rfl⟩ := Source.element_of_resolves (fileSource_resolves m root) hchecked
    obtain ⟨plainText, hplainText⟩ := exists_document?_mapPaths htext
    have hrender : render p root false m = (Except.ok plainText, m) :=
      render_of_text (Source.text_eq_ok_iff.2 ⟨plain, hplain, hplainText⟩)
    refine ⟨_, plain, plainText, hchecked, htext, hplain, hplainText, hrender, rfl, ?_, ?_⟩
    · rw [fileSource_unchecked] at hplain
      exact Source.paths_of_unchecked hplain
    · intro source hsource
      obtain ⟨path, hpath⟩ := Source.exists_find_of_mem_sources hchecked source hsource
      obtain ⟨place, hplace, -⟩ := Store.requireFile_eq_ok hpath
      obtain ⟨content, executable, hget⟩ := Store.get?_of_file? hplace
      exact ⟨place, content, executable, hplace, hget, resolved_of_file? hplace⟩

theorem workshop_agrees :
    ∃ text plainText checked plain,
      render Program.workshopPackage .current true (Program.workshop [] []) =
        (Except.ok text, Program.workshop [] []) ∧
      render Program.workshopPackage .current false (Program.workshop [] []) =
        (Except.ok plainText, Program.workshop [] []) ∧
      document? checked = some text ∧ document? plain = some plainText ∧
      checked = plain.mapPaths (resolved (Program.workshop [] [])) ∧
      "LICENSE.rtf" ∈ plain.paths := by
  obtain ⟨text, htext⟩ := Program.workshop_text [] []
  have hrender : render Program.workshopPackage .current true (Program.workshop [] []) =
      (Except.ok text, Program.workshop [] []) :=
    render_of_text htext
  obtain ⟨checked, plain, plainText, -, hchecked, -, hplain, hunchecked, hsame, hpaths, -⟩ :=
    (checked_agrees_with_unchecked Program.workshopPackage .current).2 _ _ text hrender
  refine ⟨text, plainText, checked, plain, hrender, hunchecked, hchecked, hplain, hsame, ?_⟩
  rw [hpaths]
  decide +kernel

end Build

end WixAuthoring
