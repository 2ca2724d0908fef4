import WixAuthoring.Proofs.InstallNames
import Mathlib.Logic.Relation

namespace WixAuthoring

/-!
# Sources and their separators

A source is told by its components, whichever separators stand between them, how many, and whether
there are some at its ends. Its path is the root with the components put behind it one by one, and
none of them leads back to where the root begins.
-/

namespace Text

/-- The pieces of a text that are not empty. -/
def components (separates : Char → Bool) (s : List Char) : List (List Char) :=
  (splitChars separates s).filter (· ≠ [])

variable {separates : Char → Bool} {c : Char}

@[simp] theorem components_nil (separates : Char → Bool) : components separates [] = [] := rfl

theorem components_append_separator (hc : separates c = true) (s t : List Char) :
    components separates (s ++ c :: t) = components separates s ++ components separates t := by
  rw [components, splitChars_append_separator hc, List.filter_append]
  rfl

theorem components_cons_separator (hc : separates c = true) (s : List Char) :
    components separates (c :: s) = components separates s :=
  components_append_separator hc [] s

end Text

namespace Path

open Text Relation

/-! ## Writing the separators of a source otherwise -/

/-- One change to the separators of a text: another one for one, two for one, or one more at an
end. -/
inductive Respells : List Char → List Char → Prop
  | change (front rest : List Char) {c d : Char} (hc : isSeparator c = true)
      (hd : isSeparator d = true) : Respells (front ++ c :: rest) (front ++ d :: rest)
  | double (front rest : List Char) {c : Char} (hc : isSeparator c = true) :
      Respells (front ++ c :: rest) (front ++ c :: c :: rest)
  | leading (s : List Char) {c : Char} (hc : isSeparator c = true) : Respells s (c :: s)
  | trailing (s : List Char) {c : Char} (hc : isSeparator c = true) : Respells s (s ++ [c])

/-- Holds of two texts that changes to their separators, made or taken back, turn into each other. -/
def Respelled (a b : String) : Prop := EqvGen Respells a.toList b.toList

theorem Respells.components_eq {s t : List Char} (h : Respells s t) :
    components isSeparator s = components isSeparator t := by
  cases h with
  | change front rest hc hd =>
      rw [components_append_separator hc, components_append_separator hd]
  | double front rest hc =>
      rw [components_append_separator hc, components_append_separator hc,
        components_cons_separator hc]
  | leading s hc => rw [components_cons_separator hc]
  | trailing s hc => rw [components_append_separator hc, components_nil, List.append_nil]

theorem components_eq_of_eqvGen {s t : List Char} (h : EqvGen Respells s t) :
    components isSeparator s = components isSeparator t := by
  induction h with
  | rel s t h => exact h.components_eq
  | refl s => rfl
  | symm s t _ ih => exact ih.symm
  | trans s t u _ _ ih ih' => exact ih.trans ih'

/-- Some pieces with a slash in front of each. -/
def slashed (pieces : List (List Char)) : List Char := pieces.flatMap fun piece ↦ '/' :: piece

theorem slashed_cases (pieces : List (List Char)) :
    slashed pieces = [] ∨ ∃ rest, slashed pieces = '/' :: rest := by
  cases pieces with
  | nil => exact .inl rfl
  | cons piece pieces => exact .inr ⟨piece ++ slashed pieces, rfl⟩

/-- A separator is one too many in front of pieces that have a slash before each. -/
theorem eqvGen_slashed {c : Char} (hc : isSeparator c = true) (front : List Char)
    (pieces : List (List Char)) :
    EqvGen Respells (front ++ c :: slashed pieces) (front ++ slashed pieces) := by
  rcases slashed_cases pieces with hnone | ⟨rest, hrest⟩
  · rw [hnone, List.append_nil]
    exact .symm _ _ (.rel _ _ (.trailing front hc))
  · rw [hrest]
    refine .trans _ (front ++ '/' :: '/' :: rest) _ ?_ ?_
    · exact .rel _ _ (.change front _ hc rfl)
    · exact .symm _ _ (.rel _ _ (.double front rest rfl))

/-- A text is the first of its pieces with the others behind slashes, whatever stands in front. -/
theorem eqvGen_pieces {s first : List Char} {more : List (List Char)}
    (h : splitChars isSeparator s = first :: more) (front : List Char) :
    EqvGen Respells (front ++ s) (front ++ (first ++ slashed (more.filter (· ≠ [])))) := by
  induction s generalizing first more front with
  | nil =>
      obtain ⟨rfl, rfl⟩ := List.cons.inj h
      exact .refl _
  | cons c s ih =>
      cases hpieces : splitChars isSeparator s with
      | nil => exact absurd hpieces (splitChars_ne_nil isSeparator s)
      | cons next others =>
          have hnext := ih hpieces (front ++ [c])
          rw [List.append_assoc, List.append_assoc, List.singleton_append,
            List.singleton_append] at hnext
          rw [splitChars, hpieces] at h
          split at h
          · next hc =>
              obtain ⟨rfl, rfl⟩ := List.cons.inj h
              refine .trans _ _ _ hnext ?_
              by_cases hempty : next = []
              · subst hempty
                exact eqvGen_slashed hc front _
              · rw [List.filter_cons_of_pos (by simpa using hempty)]
                exact .rel _ _ (.change front _ hc rfl)
          · obtain ⟨rfl, rfl⟩ := List.cons.inj h
            exact hnext

theorem eqvGen_components (s : List Char) :
    EqvGen Respells s (slashed (components isSeparator s)) := by
  cases hpieces : splitChars isSeparator s with
  | nil => exact absurd hpieces (splitChars_ne_nil isSeparator s)
  | cons first more =>
      refine .trans _ _ _ (eqvGen_pieces hpieces []) ?_
      rw [List.nil_append, components, hpieces]
      by_cases hempty : first = []
      · subst hempty
        exact .refl _
      · rw [List.filter_cons_of_pos (by simpa using hempty)]
        exact .rel _ _ (.leading _ rfl)

theorem eqvGen_iff {s t : List Char} :
    EqvGen Respells s t ↔ components isSeparator s = components isSeparator t := by
  refine ⟨components_eq_of_eqvGen, fun h ↦ ?_⟩
  have ht := eqvGen_components t
  rw [← h] at ht
  exact (eqvGen_components s).trans _ _ _ (.symm _ _ ht)

theorem sourceComponents_eq (source : String) :
    sourceComponents source = (components isSeparator source.toList).map String.ofList := by
  rw [sourceComponents, split, List.filter_map, components]
  congr 1
  apply List.filter_congr
  intro piece _
  simp

theorem respelled_iff {a b : String} : Respelled a b ↔ sourceComponents a = sourceComponents b := by
  rw [Respelled, eqvGen_iff, sourceComponents_eq, sourceComponents_eq,
    (List.map_injective_iff.2 fun _ _ h ↦ String.ofList_injective h).eq_iff]

theorem sourceComponents_append_separator {c : Char} (hc : isSeparator c = true) (a b : String) :
    sourceComponents (a ++ String.singleton c ++ b) = sourceComponents a ++ sourceComponents b := by
  have hchars : (a ++ String.singleton c ++ b).toList = a.toList ++ c :: b.toList := by simp
  rw [sourceComponents_eq, hchars, components_append_separator hc, List.map_append,
    ← sourceComponents_eq, ← sourceComponents_eq]

/-! ## Joining the components to a root -/

variable {root : Path}

theorem source_eq (root : Path) (source : String) :
    root.source source = ⟨root.anchor, root.parts ++ (sourceComponents source).filter (· ≠ ".")⟩ := by
  rw [Path.source, names_eq_filter_components]

theorem anchorOf_of_slash_notMem {s : String} (h : '/' ∉ s.toList) :
    anchorOf s.toList = .relative := by
  rcases anchorOf_cases s.toList with ⟨hanchor, -⟩ | ⟨-, t, hs⟩ | ⟨-, t, hs⟩
  · exact hanchor
  · simp [hs] at h
  · simp [hs] at h

theorem child_component {name : String} (h : '/' ∉ name.toList) :
    root.child name = ⟨root.anchor, root.parts ++ [name].filter isName⟩ := by
  rw [child_of_relative (anchorOf_of_slash_notMem h), names, split_eq_singleton h]

theorem foldl_child {components : List String} (h : ∀ name ∈ components, '/' ∉ name.toList) :
    components.foldl child root = ⟨root.anchor, root.parts ++ components.filter isName⟩ := by
  induction components generalizing root with
  | nil => simp
  | cons name components ih =>
      rw [List.forall_mem_cons] at h
      rw [List.foldl_cons, child_component h.1, ih h.2, List.append_assoc, ← List.filter_append,
        List.singleton_append]

theorem slash_notMem_of_mem_sourceComponents {source name : String}
    (h : name ∈ sourceComponents source) : '/' ∉ name.toList := by
  intro hslash
  obtain ⟨piece, hpiece, rfl⟩ := List.mem_map.1 (List.mem_filter.1 h).1
  rw [String.toList_ofList] at hslash
  exact absurd (Xml.mem_of_mem_splitChars hpiece hslash).2 (by decide)

/-- Joining the components one by one never meets an anchored path, which would put the root aside. -/
theorem source_eq_foldl_child (root : Path) (source : String) :
    root.source source = (sourceComponents source).foldl child root := by
  rw [foldl_child fun _ h ↦ slash_notMem_of_mem_sourceComponents h, source_eq]
  congr 2
  apply List.filter_congr
  intro name hname
  have hne : name ≠ "" := by simpa using (List.mem_filter.1 hname).2
  simp [isName, hne]

/-- Texts that differ in their separators are one source, and no others have the same components. A
source in two parts is the second part seen from the first. All that is put behind the root are the
components in order, two dots like any other name, and only single dots are left away. -/
theorem source_blind_to_separators (root : Path) (a b : String) {c : Char}
    (hc : isSeparator c = true) :
    (∀ other, Respelled a other ↔ sourceComponents a = sourceComponents other) ∧
    (∀ other, Respelled a other → root.source other = root.source a) ∧
    root.source (a ++ String.singleton c ++ b) = (root.source a).source b ∧
    root.source a = (sourceComponents a).foldl child root ∧
    (root.source a).anchor = root.anchor ∧
    root.parts <+: (root.source a).parts ∧
    (root.source a).parts = root.parts ++ (sourceComponents a).filter (· ≠ ".") := by
  refine ⟨fun _ ↦ respelled_iff, fun other h ↦ ?_, ?_, source_eq_foldl_child root a, rfl,
    List.prefix_append _ _, ?_⟩
  · rw [source_eq, source_eq, respelled_iff.1 h]
  · rw [source_eq, source_eq, source_eq, sourceComponents_append_separator hc, List.filter_append,
      List.append_assoc]
  · rw [source_eq]

theorem source_blind_to_separators_mixed :
    Path.source ⟨.doubleRoot, ["src"]⟩ ("\\..//bin" ++ String.singleton '\\' ++ "./tool.exe/") =
      (Path.source ⟨.doubleRoot, ["src"]⟩ "\\..//bin").source "./tool.exe/" ∧
    Path.source ⟨.doubleRoot, ["src"]⟩ "..\\bin" = Path.source ⟨.doubleRoot, ["src"]⟩ "\\..//bin" ∧
    (Path.source ⟨.doubleRoot, ["src"]⟩ "\\..//bin").parts = ["src", "..", "bin"] := by
  obtain ⟨hsame, hblind, hparts, -, -, -, hbelow⟩ :=
    source_blind_to_separators ⟨.doubleRoot, ["src"]⟩ "\\..//bin" "./tool.exe/"
      (show isSeparator '\\' = true from rfl)
  have hrespelled := (hsame "..\\bin").2 (by decide +kernel)
  exact ⟨hparts, hblind _ hrespelled, hbelow.trans (by decide +kernel)⟩

end Path

end WixAuthoring
