import WixAuthoring.Proofs.Elements
import WixAuthoring.Proofs.Markup
import Mathlib.Data.List.Basic

namespace WixAuthoring.Xml

/-!
# Elements are read back with their layout

A reader finds each element that was written, and around the children of an element the new lines
that they were put on. An element without children keeps its text, since no layout is written into
it.
-/

open Text

namespace Element

/-- What an element has to be so that a reader can find it again. -/
structure IsReadable (e : Element) : Prop where
  name : isName e.name.toList = true
  attributes : ∀ a ∈ e.attributes, isName a.1.toList = true ∧ IsText a.2
  nodup : (e.attributes.map Prod.fst).Nodup
  text : IsText e.text
  noReturn : '\r' ∉ e.text.toList
  alone : e.text = "" ∨ e.children = []

end Element

def layout (level : Nat) : Node := .text (String.ofList (newLine level))

mutual

/-- The node that is read for a written element. -/
def Element.laidOut (level : Nat) : Element → Node
  | .node name attributes text children =>
    .element name attributes
      (match children with
      | [] => dataNodes text.toList
      | _ :: _ => laidOutAll (level + 1) children ++ [layout level])

/-- The nodes that are read for elements on lines of their own. -/
def laidOutAll (level : Nat) : List Element → List Node
  | [] => []
  | e :: rest => layout level :: e.laidOut level :: laidOutAll level rest

end

/-! ## New lines -/

theorem mem_newLine {level : Nat} {c : Char} (h : c ∈ newLine level) : c = '\n' ∨ c = ' ' := by
  rw [newLine, List.mem_cons] at h
  exact h.imp_right List.eq_of_mem_replicate

theorem readData_newLine (level : Nat) (s : List Char) :
    readData none (newLine level ++ '<' :: s) = some (newLine level, '<' :: s) := by
  have htext : IsText (String.ofList (newLine level)) := by
    intro c hc
    rw [String.toList_ofList] at hc
    rcases mem_newLine hc with rfl | rfl <;> decide
  have hescape : escape (String.ofList (newLine level)) = newLine level := by
    have hsame : ∀ c ∈ newLine level, escapeChar c = [c] := by
      intro c hc
      rcases mem_newLine hc with rfl | rfl <;> decide
    rw [escape, String.toList_ofList, List.flatMap_congr hsame, List.flatMap_singleton']
  have hread := readData_escape htext s
  rwa [hescape, String.toList_ofList] at hread

/-! ## One tag -/

section Tag

variable {name : String} {attributes : Attributes} {s : List Char}
    (hname : isName name.toList = true)

include hname

theorem readName_tag {c : Char} (hc : isNameRest c = false) :
    readName (name.toList ++ (writeAttributes {} attributes ++ c :: s)) =
      some (name, writeAttributes {} attributes ++ c :: s) := by
  cases attributes with
  | nil => exact readName_append hname hc
  | cons a rest => exact readName_append hname (by decide)

variable (hread : ∀ a ∈ attributes, isName a.1.toList = true ∧ IsText a.2)
  (hnodup : (attributes.map Prod.fst).Nodup)

include hread hnodup

theorem readElement_empty (fuel : Nat) :
    readElement (fuel + 1)
        (name.toList ++ (writeAttributes {} attributes ++ ' ' :: '/' :: '>' :: s)) =
      some (.element name attributes [], s) := by
  have hskip : skipSpace (' ' :: '/' :: '>' :: s) = '/' :: '>' :: s := rfl
  have hmark : readName (skipSpace (' ' :: '/' :: '>' :: s)) = none :=
    readName_cons_eq_none (by decide)
  rw [readElement, readName_tag hname (by decide)]
  simp only [Option.bind_eq_bind, Option.bind_some, readAttributes_written hread hnodup hmark,
    hskip]
  rfl

theorem readElement_content {fuel : Nat} {inner : List Char} {content : List Node}
    (hcontent : readContent fuel inner = some (content, name.toList ++ '>' :: s)) :
    readElement (fuel + 1) (name.toList ++ (writeAttributes {} attributes ++ '>' :: inner)) =
      some (.element name attributes content, s) := by
  have hskip (t : List Char) : skipSpace ('>' :: t) = '>' :: t := rfl
  have hmark : readName (skipSpace ('>' :: inner)) = none := readName_cons_eq_none (by decide)
  have hclosing : readName (name.toList ++ '>' :: s) = some (name, '>' :: s) :=
    readName_append hname (by decide)
  rw [readElement, readName_tag hname (by decide)]
  simp only [Option.bind_eq_bind, Option.bind_some, readAttributes_written hread hnodup hmark,
    hskip, hcontent, hclosing, after?, if_true]
  rfl

end Tag

/-! ## Elements -/

section Content

variable {fuel : Nat} {data rest s : List Char}

theorem readContent_end (h : readData none s = some (data, '<' :: '/' :: rest)) :
    readContent (fuel + 1) s = some (dataNodes data, rest) := by
  rw [readContent, h]
  rfl

theorem readContent_element {c : Char} {body rest behind : List Char} {node : Node}
    {more : List Node} (h : readData none s = some (data, '<' :: c :: body)) (hc : c ≠ '/')
    (hnode : readElement fuel (c :: body) = some (node, rest))
    (hmore : readContent fuel rest = some (more, behind)) :
    readContent (fuel + 1) s = some (dataNodes data ++ node :: more, behind) := by
  rw [readContent, h]
  simp only [Option.bind_eq_bind, Option.bind_some]
  split
  · rename_i heq
    exact absurd (List.cons.inj (List.cons.inj heq).2).1 hc
  · rename_i heq
    rw [← (List.cons.inj heq).2, hnode]
    simp only [Option.bind_some, hmore]
    rfl
  · rename_i hno
    exact absurd rfl (hno (c :: body))

end Content

theorem write_leaf (name text : String) (attributes : Attributes) (level : Nat) :
    (Element.node name attributes text []).write {} [] level =
      '<' :: (name.toList ++ (writeAttributes {} attributes ++
        (if text = "" then [' ', '/', '>']
          else '>' :: (escape text ++ '<' :: '/' :: (name.toList ++ ['>']))))) := by
  by_cases h : text = "" <;> simp [Element.write, h]

theorem write_branch (name : String) (attributes : Attributes) (first : Element)
    (rest : List Element) (level : Nat) :
    (Element.node name attributes "" (first :: rest)).write {} [] level =
      '<' :: (name.toList ++ (writeAttributes {} attributes ++
        '>' :: (writeMore {} (level + 1) (first :: rest) ++
          (newLine level ++ '<' :: '/' :: (name.toList ++ ['>']))))) := by
  have hlead : writeLead (level + 1) "" = newLine (level + 1) := rfl
  simp [Element.write, writeMore, hlead]

theorem exists_write {e : Element} (h : isName e.name.toList = true) (level : Nat) :
    ∃ c body, e.write {} [] level = '<' :: c :: body ∧ isNameStart c = true := by
  obtain ⟨name, attributes, text, children⟩ := e
  obtain ⟨c, t, hname, hc⟩ := exists_of_isName (s := name.toList) h
  cases children with
  | nil =>
      rw [write_leaf, hname]
      exact ⟨c, _, rfl, hc⟩
  | cons first rest =>
      rw [Element.write, Names.spell_empty, hname]
      exact ⟨c, _, rfl, hc⟩

/-- Holds of an element that is found again, whatever stands behind it. -/
def Element.ReadsBack (e : Element) : Prop :=
  ∀ (level fuel : Nat) (body s : List Char), e.write {} [] level = '<' :: body → body.length ≤ fuel →
    readElement fuel (body ++ s) = some (e.laidOut level, s)

/-- Holds of elements that are found again up to the end tag of what holds them. -/
def AllReadBack (es : List Element) : Prop :=
  ∀ (level outer fuel : Nat) (s : List Char), (writeMore {} level es).length < fuel →
    readContent fuel (writeMore {} level es ++ (newLine outer ++ '<' :: '/' :: s)) =
      some (laidOutAll level es ++ [layout outer], s)

theorem allReadBack_nil : AllReadBack [] := by
  intro level outer fuel s hfuel
  cases fuel with
  | zero => exact absurd hfuel (Nat.not_lt_zero _)
  | succ fuel => exact readContent_end (readData_newLine outer ('/' :: s))

theorem allReadBack_cons {e : Element} {rest : List Element} (hname : isName e.name.toList = true)
    (he : e.ReadsBack) (hrest : AllReadBack rest) : AllReadBack (e :: rest) := by
  intro level outer fuel s hfuel
  obtain ⟨c, body, hwrite, hc⟩ := exists_write hname level
  have hslash : c ≠ '/' := by
    rintro rfl
    exact absurd hc (by decide)
  have hmore : writeMore {} level (e :: rest) =
      newLine level ++ '<' :: (c :: body ++ writeMore {} level rest) := by
    rw [writeMore, hwrite]
    simp
  rw [hmore, List.length_append, List.length_cons, List.length_append] at hfuel
  -- The bracket alone pays for the unit of fuel that the element and what follows it go without.
  cases fuel with
  | zero => exact absurd hfuel (Nat.not_lt_zero _)
  | succ fuel =>
      have hnode := he level fuel (c :: body)
        (writeMore {} level rest ++ (newLine outer ++ '<' :: '/' :: s)) hwrite (by omega)
      have hcontent := hrest level outer fuel s (by omega)
      rw [hmore, List.append_assoc, List.cons_append, List.append_assoc]
      exact readContent_element (readData_newLine level _) hslash hnode hcontent

theorem readsBack_leaf {name text : String} {attributes : Attributes}
    (h : (Element.node name attributes text []).IsReadable) :
    (Element.node name attributes text []).ReadsBack := by
  intro level fuel body s hbody hfuel
  have hname : isName name.toList = true := h.name
  have hattributes : ∀ a ∈ attributes, isName a.1.toList = true ∧ IsText a.2 := h.attributes
  have hnodup : (attributes.map Prod.fst).Nodup := h.nodup
  rw [write_leaf] at hbody
  obtain rfl := (List.cons.inj hbody).2.symm
  rw [List.length_append, List.length_append] at hfuel
  rw [Element.laidOut]
  by_cases htext : text = ""
  · subst text
    rw [if_pos rfl] at hfuel ⊢
    obtain ⟨fuel, rfl⟩ : ∃ n, fuel = n + 1 := ⟨fuel - 1, by simp at hfuel; omega⟩
    rw [List.append_assoc, List.append_assoc]
    exact readElement_empty hname hattributes hnodup fuel
  · rw [if_neg htext] at hfuel ⊢
    obtain ⟨fuel, rfl⟩ : ∃ n, fuel = n + 2 := ⟨fuel - 2, by simp at hfuel; omega⟩
    have hcontent : readContent (fuel + 1) (escape text ++ '<' :: '/' :: (name.toList ++ '>' :: s)) =
        some (dataNodes text.toList, name.toList ++ '>' :: s) :=
      readContent_end (readData_escape h.text _)
    have hread := readElement_content hname hattributes hnodup hcontent
    simpa using hread

theorem readsBack_branch {name : String} {attributes : Attributes} {first : Element}
    {rest : List Element} (h : (Element.node name attributes "" (first :: rest)).IsReadable)
    (hchildren : AllReadBack (first :: rest)) :
    (Element.node name attributes "" (first :: rest)).ReadsBack := by
  intro level fuel body s hbody hfuel
  have hname : isName name.toList = true := h.name
  have hattributes : ∀ a ∈ attributes, isName a.1.toList = true ∧ IsText a.2 := h.attributes
  have hnodup : (attributes.map Prod.fst).Nodup := h.nodup
  rw [write_branch] at hbody
  obtain rfl := (List.cons.inj hbody).2.symm
  simp only [List.length_append, List.length_cons] at hfuel
  rw [Element.laidOut]
  obtain ⟨fuel, rfl⟩ : ∃ n, fuel = n + 1 := ⟨fuel - 1, by omega⟩
  have hcontent := hchildren (level + 1) level fuel (name.toList ++ '>' :: s) (by omega)
  have hread := readElement_content hname hattributes hnodup hcontent
  simpa using hread

open Element

mutual

theorem readsBack_of_isReadable : (e : Element) → (∀ x ∈ e.flatten, x.IsReadable) → e.ReadsBack
  | .node name attributes text children, h => by
    obtain ⟨hself, hbelow⟩ := forall_mem_flatten.1 h
    have hchildren := allReadBack_of_isReadable children hbelow
    cases children with
    | nil => exact readsBack_leaf hself
    | cons first rest =>
        obtain rfl : text = "" := hself.alone.resolve_right (List.cons_ne_nil first rest)
        exact readsBack_branch hself hchildren

theorem allReadBack_of_isReadable :
    (es : List Element) → (∀ x ∈ flattenAll es, x.IsReadable) → AllReadBack es
  | [], _ => allReadBack_nil
  | e :: rest, h => by
    obtain ⟨he, hrest⟩ := forall_mem_flattenAll_cons.1 h
    have hname : isName e.name.toList = true := (forall_mem_flatten.1 he).1.name
    exact allReadBack_cons hname (readsBack_of_isReadable e he)
      (allReadBack_of_isReadable rest hrest)

end

/-! ## Nothing written is a line end for another -/

theorem return_not_mem_name {name : List Char} (h : isName name = true) : '\r' ∉ name := by
  intro hmem
  exact absurd (List.all_eq_true.1 (all_isNameRest_of_isName h) '\r' hmem) (by decide)

theorem return_not_mem_newLine (level : Nat) : '\r' ∉ newLine level := by
  intro hmem
  rcases mem_newLine hmem with h | h <;> exact absurd h (by decide)

theorem return_not_mem_writeAttributes {attributes : Attributes}
    (h : ∀ a ∈ attributes, isName a.1.toList = true ∧ IsText a.2) :
    '\r' ∉ writeAttributes {} attributes := by
  intro hmem
  obtain ⟨⟨name, value⟩, ha, hmem⟩ := List.mem_flatMap.1 hmem
  have hname := return_not_mem_name (h _ ha).1
  have hvalue := return_not_mem_escapeAttribute value
  simp [writeAttribute, hname, hvalue] at hmem

mutual

theorem return_not_mem_write (level : Nat) :
    (e : Element) → (∀ x ∈ e.flatten, x.IsReadable) → '\r' ∉ e.write {} [] level
  | .node name attributes text children, h => by
    obtain ⟨hself, hbelow⟩ := forall_mem_flatten.1 h
    have hmore := return_not_mem_writeMore (level + 1) children hbelow
    have hname := return_not_mem_name hself.name
    have hattributes := return_not_mem_writeAttributes hself.attributes
    have hline := return_not_mem_newLine level
    cases children with
    | nil =>
        have htext := return_not_mem_escape hself.noReturn
        rw [write_leaf]
        split <;> simp_all [Element.name, Element.attributes, Element.text]
    | cons first rest =>
        obtain rfl : text = "" := hself.alone.resolve_right (List.cons_ne_nil first rest)
        rw [write_branch]
        simp_all [Element.name, Element.attributes]

theorem return_not_mem_writeMore (level : Nat) :
    (es : List Element) → (∀ x ∈ flattenAll es, x.IsReadable) → '\r' ∉ writeMore {} level es
  | [], _ => List.not_mem_nil
  | e :: rest, h => by
    obtain ⟨he, hrest⟩ := forall_mem_flattenAll_cons.1 h
    simp [writeMore, return_not_mem_newLine level, return_not_mem_write level e he,
      return_not_mem_writeMore level rest hrest]

end

end WixAuthoring.Xml
