import Mathlib.Data.List.DropRight
import WixAuthoring.Package.Entry
import WixAuthoring.Proofs.PathTexts

namespace WixAuthoring

/-!
# Install names

The name that a file is installed under is cut from its source, and so is the path that it is taken
from. Both end in the same name exactly when no separator stands at the end of the source.
-/

namespace Text

/-- The last piece of a text reaches back to its last separator. -/
theorem getLast?_splitChars (separates : Char → Bool) (s : List Char) :
    (splitChars separates s).getLast? = some (s.rtakeWhile fun c ↦ !separates c) := by
  have hwhole : (s.rdropWhile fun c ↦ !separates c) ++ (s.rtakeWhile fun c ↦ !separates c) = s :=
    List.rdropWhile_append_rtakeWhile
  have hpiece : splitChars separates (s.rtakeWhile fun c ↦ !separates c) =
      [s.rtakeWhile fun c ↦ !separates c] := by
    apply splitChars_of_none
    intro c hc
    simpa using List.mem_rtakeWhile_imp hc
  rcases List.eq_nil_or_concat' (s.rdropWhile fun c ↦ !separates c) with hnone | ⟨front, c, hfront⟩
  · rw [hnone, List.nil_append] at hwhole
    rw [hwhole] at hpiece
    rw [hpiece, hwhole]
    rfl
  · have hc : separates c = true := by
      have hstops := List.rdropWhile_last_not (fun c ↦ !separates c) s (by simp [hfront])
      simpa [hfront] using hstops
    rw [hfront, List.append_assoc, List.singleton_append] at hwhole
    have hsplit := splitChars_append_separator hc front (s.rtakeWhile fun c ↦ !separates c)
    rw [hwhole, hpiece] at hsplit
    rw [hsplit, List.getLast?_concat]

theorem getLast?_filter_of_pos {α : Type} {p : α → Bool} {l : List α} {a : α}
    (h : l.getLast? = some a) (ha : p a = true) : (l.filter p).getLast? = some a := by
  obtain ⟨front, rfl⟩ := List.getLast?_eq_some_iff.1 h
  rw [List.filter_append, List.filter_singleton, ha]
  exact List.getLast?_concat

end Text

open Text

/-- The components of a source, whichever separators it is written with. -/
def sourceComponents (source : String) : List String :=
  (split Path.isSeparator source).filter (· ≠ "")

/-- Holds of a source with a separator behind its last component. -/
def EndsInSeparator (source : String) : Prop := ∃ c ∈ source.toList.getLast?, Path.isSeparator c = true

variable {source last : String}

theorem getLast?_split (source : String) :
    (split Path.isSeparator source).getLast? = some (lastPart source) := by
  have hlast : (split Path.isSeparator source).getLast? = some (String.ofList
      (source.toList.rtakeWhile fun c ↦ !Path.isSeparator c)) := by
    rw [split, List.getLast?_map, getLast?_splitChars]
    rfl
  have hpart : lastPart source = (split Path.isSeparator source).getLastD "" := rfl
  rw [hpart, List.getLastD_eq_getLast?, hlast, Option.getD_some]

theorem lastPart_eq_empty_iff (h : source ≠ "") : lastPart source = "" ↔ EndsInSeparator source := by
  have hchars : source.toList ≠ [] := by simpa using h
  have hlast := getLast?_split source
  rw [split, List.getLast?_map, getLast?_splitChars, Option.map_some, Option.some_inj] at hlast
  rw [← hlast, EndsInSeparator, List.getLast?_eq_some_getLast hchars, String.ofList_eq_empty_iff,
    List.rtakeWhile_eq_nil_iff]
  simp [hchars]

/-- The names of a source are its components but for single dots. -/
theorem names_eq_filter_components (source : String) :
    Path.names Path.isSeparator source = (sourceComponents source).filter (· ≠ ".") := by
  rw [Path.names, sourceComponents, List.filter_filter]
  apply List.filter_congr
  intro s _
  rw [Path.isName, Bool.and_comm]

/-- A source with a component is taken from a path that ends in its last one. -/
theorem getLast?_source (h : (sourceComponents source).getLast? = some last) (hdot : last ≠ ".")
    (root : Path) : (root.source source).parts.getLast? = some last := by
  have hlast := getLast?_filter_of_pos h (p := (· ≠ ".")) (by simpa using hdot)
  rw [Path.source_parts, names_eq_filter_components, List.getLast?_append, hlast]
  rfl

/-- What follows the last separator is the last component, or it is nothing. -/
theorem lastPart_eq_iff (h : (sourceComponents source).getLast? = some last) :
    lastPart source = last ↔ lastPart source ≠ "" := by
  have hlast : last ≠ "" := by
    have hmem := List.mem_of_getLast? h
    simpa using (List.mem_filter.1 hmem).2
  constructor
  · rintro rfl
    exact hlast
  · intro hne
    have hcomponent := getLast?_filter_of_pos (getLast?_split source) (p := (· ≠ ""))
      (by simpa using hne)
    exact Option.some_inj.1 (hcomponent.symm.trans h)

namespace PackagedFile

theorem installName_of_unnamed {f : PackagedFile} (h : given f.name = none) :
    f.installName = lastPart f.source := by
  rw [installName, h, Option.getD_none]

/-- A file that is given no name is installed under the last name of the path that it is taken from,
unless its source ends in a separator. Then the name is empty. -/
theorem installName_eq_last_iff {f : PackagedFile} (hname : given f.name = none)
    (hlast : (sourceComponents f.source).getLast? = some last) (hdot : last ≠ ".") (root : Path) :
    (root.source f.source).parts.getLast? = some last ∧
      ((root.source f.source).parts.getLast? = some f.installName ↔ ¬EndsInSeparator f.source) ∧
      (EndsInSeparator f.source → f.installName = "") := by
  have hsource : f.source ≠ "" := by
    intro hempty
    rw [hempty] at hlast
    cases hlast
  have hpath := getLast?_source hlast hdot root
  have hempty := lastPart_eq_empty_iff hsource
  rw [installName_of_unnamed hname]
  refine ⟨hpath, ?_, hempty.2⟩
  rw [hpath, Option.some_inj, eq_comm, lastPart_eq_iff hlast, ← hempty]

/-- A source with separators of both kinds before and between its components. -/
def mixedSource : PackagedFile := { source := "\\bin//.\\tool.exe", name := some "" }

theorem mixedSource_installName :
    (sourceComponents mixedSource.source).getLast? = some "tool.exe" ∧
      ((Path.source ⟨.root, ["src"]⟩ mixedSource.source).parts.getLast? =
        some mixedSource.installName ↔ ¬EndsInSeparator mixedSource.source) := by
  have hlast : (sourceComponents mixedSource.source).getLast? = some "tool.exe" := by
    decide +kernel
  exact ⟨hlast, (installName_eq_last_iff rfl hlast (by decide) ⟨.root, ["src"]⟩).2.1⟩

/-- A source that ends in a separator. -/
def trailedSource : PackagedFile := { source := "bin/tool.exe/" }

theorem trailedSource_installName :
    (sourceComponents trailedSource.source).getLast? = some "tool.exe" ∧
      (Path.current.source trailedSource.source).parts.getLast? = some "tool.exe" ∧
      trailedSource.installName = "" := by
  refine ⟨?_, ?_, ?_⟩ <;> decide +kernel

end PackagedFile

end WixAuthoring
