import WixAuthoring.Failure
import WixAuthoring.Path
import WixAuthoring.Store.Walk

namespace WixAuthoring

/-!
# The files of a package

A document names a file by a path. The path is taken as it is written, or it has to lead to a regular
file and is written out with all links resolved.
-/

/-- Where the files of a package are taken from: the root of their paths, and what is made of each. -/
structure FileSource where
  root : Path
  place : Path → Except Failure Path

namespace FileSource

def find (files : FileSource) (source : String) : Except Failure Path :=
  files.place (files.root.source source)

/-- Takes paths as they are written. -/
def unchecked (root : Path) : FileSource := ⟨root, .ok⟩

end FileSource

/-- The anchored path of a regular file that has to be there, with all links resolved. -/
def Store.requireFile (s : Store) (here : Location) (p : Path) : Except Failure Path :=
  match s.file? here p.text with
  | .error e => .error (.store e)
  | .ok none => .error (.configuration (.missingSource p.text))
  | .ok (some place) => .ok ⟨.root, place⟩

theorem Store.requireFile_eq_ok {s : Store} {here : Location} {path found : Path}
    (h : s.requireFile here path = .ok found) :
    ∃ place, s.file? here path.text = .ok (some place) ∧ found = ⟨.root, place⟩ := by
  rw [requireFile] at h
  split at h
  · cases h
  · cases h
  · next place hplace => exact ⟨place, hplace, (Except.ok.inj h).symm⟩

/-- Takes files that are there. -/
def FileSource.checked (s : Store) (here : Location) (root : Path) : FileSource :=
  ⟨root, s.requireFile here⟩

end WixAuthoring
