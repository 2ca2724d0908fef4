import WixAuthoring.Proofs.Expansion

namespace WixAuthoring.Xml

/-!
# Documents are read back

Writing an element and reading the document gives the element again, with its names in the
namespace that it declares. The new lines that were put around children are taken for layout.
-/

open Text Element

/-! ## Layout is dropped -/

theorem isElement_laidOut (level : Nat) (e : Element) : (e.laidOut level).isElement = true := by
  obtain ⟨name, attributes, text, children⟩ := e
  cases children <;> rfl

theorem isLayout_newLine (level : Nat) : Node.isLayout (String.ofList (newLine level)) = true := by
  rw [Node.isLayout, String.toList_ofList, List.all_eq_true]
  intro c hc
  rcases mem_newLine hc with rfl | rfl <;> decide

theorem toElement?_dataNodes (name text : String) (attributes : Attributes) :
    (Node.element name attributes (dataNodes text.toList)).toElement? =
      some (.node name attributes text []) := by
  by_cases h : text = ""
  · subst text
    rfl
  · have htext : text.toList ≠ [] := fun hnil ↦ h (String.toList_eq_nil_iff.1 hnil)
    rw [dataNodes, if_neg htext, Node.toElement?, String.ofList_toList]
    rfl

mutual

theorem toElement?_laidOut (level : Nat) : (e : Element) →
    (∀ x ∈ e.flatten, x.text = "" ∨ x.children = []) → (e.laidOut level).toElement? = some e
  | .node name attributes text children, h => by
    obtain ⟨hself, hbelow⟩ := forall_mem_flatten.1 h
    have hchildren := toElements?_laidOutAll (level + 1) level children hbelow
    cases children with
    | nil =>
        rw [laidOut]
        exact toElement?_dataNodes name text attributes
    | cons first rest =>
        obtain rfl : text = "" := hself.resolve_right (List.cons_ne_nil first rest)
        have hany : (laidOutAll (level + 1) (first :: rest) ++ [layout level]).any
            Node.isElement = true := by
          simp [laidOutAll, isElement_laidOut]
        rw [laidOut, Node.toElement?, hany, hchildren]
        rfl

theorem toElements?_laidOutAll (level outer : Nat) : (es : List Element) →
    (∀ x ∈ flattenAll es, x.text = "" ∨ x.children = []) →
    Node.toElements? (laidOutAll level es ++ [layout outer]) = some es
  | [], _ => by
    rw [laidOutAll, List.nil_append, layout, Node.toElements?, Node.isElement, Node.data,
      isLayout_newLine]
    rfl
  | e :: rest, h => by
    obtain ⟨he, hrest⟩ := forall_mem_flattenAll_cons.1 h
    have hline : (layout level).isElement = false := rfl
    have hdata : (layout level).data = String.ofList (newLine level) := rfl
    rw [laidOutAll, List.cons_append, List.cons_append, Node.toElements?, hline, hdata,
      isLayout_newLine, Node.toElements?, isElement_laidOut, toElement?_laidOut level e he,
      toElements?_laidOutAll level outer rest hrest]
    rfl

end

mutual

theorem flatten_qualify (space : String) : (e : Element) →
    (e.qualify space).flatten = e.flatten.map (qualify space)
  | .node name attributes text children => by
    rw [qualify, flatten, flatten, flattenAll_qualifyAll space children, List.map_cons, qualify]

theorem flattenAll_qualifyAll (space : String) : (es : List Element) →
    flattenAll (qualifyAll space es) = (flattenAll es).map (qualify space)
  | [] => by rw [qualifyAll, flattenAll_nil, List.map_nil]
  | e :: rest => by
    rw [qualifyAll, flattenAll, flattenAll, flatten_qualify space e,
      flattenAll_qualifyAll space rest, List.map_append]

end

theorem alone_qualify {space : String} {e : Element} (h : e.text = "" ∨ e.children = []) :
    (e.qualify space).text = "" ∨ (e.qualify space).children = [] := by
  obtain ⟨name, attributes, text, children⟩ := e
  refine h.imp id fun hnil ↦ ?_
  obtain rfl : children = [] := hnil
  rfl

/-! ## Documents -/

theorem isUnbraced_of_isName {name : String} (h : isName name.toList = true) :
    isUnbraced name = true := by
  obtain ⟨c, t, hname, hc⟩ := exists_of_isName h
  have hbrace : c ≠ '\x7b' := by
    rintro rfl
    exact absurd hc (by decide)
  simp [isUnbraced, hname, hbrace]

/-- No short name is needed for names that are written as they are. -/
theorem ofElement?_of_isReadable {e : Element} (h : ∀ x ∈ e.flatten, x.IsReadable) :
    Names.ofElement? e = some {} := by
  refine Names.addAll?_of_isUnbraced (fun name hname ↦ isUnbraced_of_isName ?_) {}
  obtain ⟨x, hx, hname⟩ := List.mem_flatMap.1 hname
  rcases List.mem_cons.1 hname with rfl | hname
  · exact (h x hx).name
  · obtain ⟨a, ha, rfl⟩ := List.mem_map.1 hname
    exact ((h x hx).attributes a ha).1

theorem toList_declaration : declaration.toList = "<?xml".toList ++
    (writeAttributes {} [("version", "1.0"), ("encoding", "UTF-8")] ++ '?' :: '>' :: ['\n']) := by
  decide

theorem afterDeclaration_declaration (s : List Char) :
    afterDeclaration (declaration.toList ++ s) = some ('\n' :: s) := by
  have hskip : skipSpace ('?' :: '>' :: '\n' :: s) = '?' :: '>' :: '\n' :: s := rfl
  have hmark : readName (skipSpace ('?' :: '>' :: '\n' :: s)) = none :=
    readName_cons_eq_none (by decide)
  have hread : ∀ a ∈ [("version", "1.0"), ("encoding", "UTF-8")],
      isName a.1.toList = true ∧ IsText a.2 := by decide
  have hattributes := readAttributes_written hread (by decide) hmark
  have hnames : [("version", "1.0"), ("encoding", "UTF-8")].map Prod.fst ∈
      [["version"], ["version", "encoding"]] := by decide
  rw [toList_declaration, List.append_assoc, List.append_assoc, afterDeclaration, after?_append]
  simp only [List.cons_append, List.nil_append, Option.bind_eq_bind, hattributes, Option.bind_some,
    if_pos hnames, hskip, after?, if_true]

variable {name space : String} {children : List Element}

/-- The root element brings its namespace into the scope of all elements. -/
theorem expand?_root_element (hname : ':' ∉ name.toList) {content expanded : List Node}
    (hcontent : expandAll? (("", space) :: Scope.start) content = some expanded) :
    (Node.element name [("xmlns", space)] content).expand? .start =
      some (.element (expandedName space name) [] expanded) := by
  have hscope : Scope.start.enter [("xmlns", space)] = ("", space) :: Scope.start := rfl
  have hlookup : (("", space) :: Scope.start).lookup "" = some space := rfl
  have hattributes :
      Scope.expandAttributes? (("", space) :: Scope.start) [("xmlns", space)] = some [] := rfl
  rw [Node.expand?, hscope, hlookup]
  simp only [Option.getD_some, expand?_of_not_mem hname, Option.bind_eq_bind, Option.bind_some,
    hattributes, hcontent]
  rfl

theorem expand?_root (hname : ':' ∉ name.toList)
    (hbelow : ∀ x ∈ flattenAll children, x.IsReadable ∧ x.IsLocal) :
    ((branch name [("xmlns", space)] children).laidOut 0).expand? .start =
      some (((branch name [("xmlns", space)] children).qualify space).laidOut 0) := by
  have hlookup : (("", space) :: Scope.start).lookup "" = some space := rfl
  have hnone : [("xmlns", space)].filter (·.1 ≠ "xmlns") = [] := rfl
  have hchildren := expandAll?_laidOutAll hlookup 1 children hbelow
  rw [branch, qualify, hnone]
  cases children with
  | nil =>
      rw [qualifyAll, laidOut, laidOut]
      exact expand?_root_element hname rfl
  | cons first rest =>
      rw [qualifyAll] at hchildren ⊢
      rw [laidOut, laidOut]
      exact expand?_root_element hname (expandAll?_append hchildren rfl)

theorem readDocument_write {root : Element} (h : ∀ x ∈ root.flatten, x.IsReadable) :
    readDocument (declaration.toList ++ (root.write {} [] 0 ++ ['\n'])) =
      (root.laidOut 0).expand? .start := by
  obtain ⟨c, body, hwrite, -⟩ := exists_write (forall_mem_flatten.1 h).1.name 0
  have hskip (s : List Char) : skipSpace ('\n' :: '<' :: s) = '<' :: s := rfl
  have hread :=
    readsBack_of_isReadable root h 0 ((c :: body ++ ['\n']).length + 1) (c :: body) ['\n']
    hwrite (by rw [List.length_append]; omega)
  rw [readDocument, afterDeclaration_declaration, hwrite, Option.bind_eq_bind, Option.bind_some,
    List.cons_append, hskip]
  simp only [after?, if_true, Option.bind_eq_bind, Option.bind_some, hread]
  rfl

theorem return_not_mem_document {root : Element} (h : ∀ x ∈ root.flatten, x.IsReadable) :
    '\r' ∉ declaration.toList ++ (root.write {} [] 0 ++ ['\n']) := by
  have hdeclaration : '\r' ∉ declaration.toList := by decide
  simp [hdeclaration, return_not_mem_write 0 root h]

/-- Whatever is written of a readable element in a default namespace is read as that element, with
new lines around children for its only layout. -/
theorem read?_document? (hname : isName name.toList = true) (hlocal : ':' ∉ name.toList)
    (hspace : IsText space) (hbelow : ∀ x ∈ flattenAll children, x.IsReadable ∧ x.IsLocal) :
    ∃ t, document? (branch name [("xmlns", space)] children) = some t ∧
      readDocument (lineEnds t.toList) =
        some (((branch name [("xmlns", space)] children).qualify space).laidOut 0) ∧
      read? t = some ((branch name [("xmlns", space)] children).qualify space) := by
  have hxmlns : isName "xmlns".toList = true := by decide
  have hattributes : ∀ a ∈ [("xmlns", space)], isName a.1.toList = true ∧ IsText a.2 := by
    intro a ha
    obtain rfl := List.mem_singleton.1 ha
    exact ⟨hxmlns, hspace⟩
  have hnothing : IsText "" ∧ '\r' ∉ "".toList := by decide
  have hroot : (branch name [("xmlns", space)] children).IsReadable :=
    ⟨hname, hattributes, by simp [branch, attributes], hnothing.1, hnothing.2, .inl rfl⟩
  have hreadable : ∀ x ∈ (branch name [("xmlns", space)] children).flatten, x.IsReadable :=
    forall_mem_flatten.2 ⟨hroot, fun x hx ↦ (hbelow x hx).1⟩
  have halone : ∀ x ∈ ((branch name [("xmlns", space)] children).qualify space).flatten,
      x.text = "" ∨ x.children = [] := by
    intro x hx
    rw [flatten_qualify] at hx
    obtain ⟨e, he, rfl⟩ := List.mem_map.1 hx
    exact alone_qualify (hreadable e he).alone
  refine ⟨_, by rw [document?, ofElement?_of_isReadable hreadable, Option.map_some], ?_⟩
  rw [read?, String.toList_append, String.toList_append, String.toList_ofList, List.append_assoc]
  have hnone : writeDeclarations {} = [] := by simp [writeDeclarations, Names.declarations]
  have hend : "\n".toList = ['\n'] := rfl
  rw [hnone, hend, lineEnds_of_not_mem (return_not_mem_document hreadable),
    readDocument_write hreadable, expand?_root hlocal hbelow, Option.bind_some]
  exact ⟨rfl, toElement?_laidOut 0 _ halone⟩

end WixAuthoring.Xml
