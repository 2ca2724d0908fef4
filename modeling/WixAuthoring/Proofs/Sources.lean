import WixAuthoring.Proofs.FilePaths
import WixAuthoring.Proofs.Growth

namespace WixAuthoring

/-!
# Finding more files gives the same document

A document asks for each file of its package once and writes down where it is. So whoever finds
all these files at the same places writes the same document, whatever else is found.
-/

/-- Holds when files are taken from the same root, and what one finds is found at the same place. -/
structure FileSource.Extends (more files : FileSource) : Prop where
  root_eq : more.root = files.root
  place_eq : ∀ path found, files.place path = .ok found → more.place path = .ok found

variable {more files : FileSource}

theorem FileSource.Extends.resolves (h : more.Extends files) : files.Resolves id more where
  root_eq := h.root_eq
  place_eq path found hfound := ⟨found, h.place_eq path found hfound, rfl⟩

theorem FileSource.extends_checked {s t : Store} (h : s.Grows t) (here : Location) (root : Path) :
    (FileSource.checked t here root).Extends (FileSource.checked s here root) where
  root_eq := rfl
  place_eq path found hfound := by
    change s.requireFile here path = .ok found at hfound
    change t.requireFile here path = .ok found
    obtain ⟨place, hfile, rfl⟩ := Store.requireFile_eq_ok hfound
    rw [Store.requireFile, Store.file?_of_grows h hfile]

namespace Source

open Xml

variable {p : Package}

theorem element_of_extends (h : more.Extends files) {root : Element}
    (hroot : element p files = .ok root) : element p more = .ok root := by
  obtain ⟨plain, hplain, rfl⟩ := element_of_resolves h.resolves hroot
  rw [hplain, Element.mapPaths_id]

theorem text_of_extends (h : more.Extends files) {t : String} (ht : text p files = .ok t) :
    text p more = .ok t := by
  rw [text, bind_eq_ok_iff] at ht ⊢
  obtain ⟨root, hroot, ht⟩ := ht
  exact ⟨root, element_of_extends h hroot, ht⟩

end Source

end WixAuthoring
