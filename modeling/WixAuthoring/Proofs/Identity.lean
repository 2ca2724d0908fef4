import WixAuthoring.Product
import WixAuthoring.Proofs.Document
import Mathlib.Data.List.Induction

namespace WixAuthoring

/-!
# When two files share an identity

The identifier of a file spells its location: the names of its directories and its own name with a
dot in front of each, and an underscore for whatever an identifier must not hold. Two files share
identifier, component and GUID exactly when their locations are spelled alike. Dots within names
and characters that are replaced make different locations look alike. Where no name holds either,
but for as many dots in the own name of each file, locations are told apart.
-/

namespace PlacedFile

/-- The names that lead to a file from the top of a package, its own name last. -/
def location (f : PlacedFile) : List String := f.folders.map Folder.name ++ [f.file.installName]

def dotted (names : List String) : List Char := names.flatMap fun n ↦ '.' :: n.toList

/-- A location as an identifier spells it. -/
def spelled (f : PlacedFile) : List Char := (dotted f.location).map Identifier.sanitizeChar

@[simp] theorem dotted_nil : dotted [] = [] := rfl

@[simp] theorem dotted_cons (n : String) (names : List String) :
    dotted (n :: names) = '.' :: n.toList ++ dotted names := by
  simp [dotted]

@[simp] theorem dotted_append (names others : List String) :
    dotted (names ++ others) = dotted names ++ dotted others := by
  simp [dotted]

end PlacedFile

namespace Identifier

@[simp] theorem sanitizeChar_sanitizeChar (c : Char) :
    sanitizeChar (sanitizeChar c) = sanitizeChar c :=
  sanitizeChar_of_isRest (isRest_sanitizeChar c)

/-- Behind a legal beginning every character is looked at by itself. -/
theorem ofChars_append {s : List Char} (hs : IsLegal s) (t : List Char) :
    ofChars (s ++ t) = s ++ t.map sanitizeChar := by
  cases s with
  | nil => exact absurd hs id
  | cons c s =>
      have hlegal := ofChars_of_isLegal hs
      have hc : sanitizeChar c = c := sanitizeChar_of_isRest (isRest_of_isStart hs.1)
      have hs' : s.map sanitizeChar = s := by
        simpa [ofChars, withStart, hc, hs.1] using hlegal
      simp [ofChars, withStart, hc, hs.1, hs']

theorem isLegal_identifier (name : String) : IsLegal (identifier name).toList := by
  rw [toList_identifier]
  exact isLegal_ofChars name.toList

end Identifier

namespace PlacedFile

/-! ## Plain locations -/

/-- A file of which no name holds a character that is replaced, nor the name of a folder a dot.
Its own name holds `dots` of them. -/
structure IsPlain (dots : Nat) (f : PlacedFile) : Prop where
  rest : ∀ n ∈ f.location, ∀ c ∈ n.toList, Identifier.isRest c = true
  folders : ∀ d ∈ f.folders, '.' ∉ d.name.toList
  own : f.file.installName.toList.count '.' = dots

theorem spelled_of_isPlain {dots : Nat} {f : PlacedFile} (h : f.IsPlain dots) :
    f.spelled = dotted f.location := by
  have hkept : ∀ c ∈ dotted f.location, Identifier.sanitizeChar c = c := by
    intro c hc
    obtain ⟨n, hn, hc⟩ := List.mem_flatMap.1 hc
    apply Identifier.sanitizeChar_of_isRest
    rcases List.mem_cons.1 hc with rfl | hc
    · decide
    · exact h.rest n hn c hc
  rw [spelled, List.map_congr_left hkept, List.map_id']

theorem count_dotted {names : List String} (h : ∀ n ∈ names, '.' ∉ n.toList) :
    (dotted names).count '.' = names.length := by
  induction names with
  | nil => rfl
  | cons n names ih =>
      rw [List.forall_mem_cons] at h
      rw [dotted_cons, List.count_append, List.count_cons_self, List.count_eq_zero_of_not_mem h.1,
        ih h.2, List.length_cons]
      omega

theorem append_dot_inj {x y u v : List Char} (hx : '.' ∉ x) (hy : '.' ∉ y)
    (h : x ++ '.' :: u = y ++ '.' :: v) : x = y ∧ u = v := by
  have hlength : x.length = y.length := by
    have hidx := congrArg (List.idxOf '.') h
    rwa [List.idxOf_append_of_notMem hx, List.idxOf_append_of_notMem hy, List.idxOf_cons_self,
      List.idxOf_cons_self] at hidx
  have hsplit := List.append_inj h hlength
  exact ⟨hsplit.1, (List.cons.inj hsplit.2).2⟩

/-- As many names without a dot are found again in front of a last one. -/
theorem dotted_concat_inj {names others : List String} {last other : String}
    (hnames : ∀ n ∈ names, '.' ∉ n.toList) (hothers : ∀ n ∈ others, '.' ∉ n.toList)
    (hlength : names.length = others.length)
    (h : dotted (names ++ [last]) = dotted (others ++ [other])) :
    names = others ∧ last = other := by
  induction names generalizing others with
  | nil =>
      cases List.length_eq_zero_iff.1 hlength.symm
      simpa [String.toList_inj] using h
  | cons n names ih =>
      cases others with
      | nil => simp at hlength
      | cons o others =>
          rw [List.forall_mem_cons] at hnames hothers
          obtain ⟨u, hu⟩ : ∃ u, dotted (names ++ [last]) = '.' :: u := by
            cases names <;> exact ⟨_, dotted_cons _ _⟩
          obtain ⟨v, hv⟩ : ∃ v, dotted (others ++ [other]) = '.' :: v := by
            cases others <;> exact ⟨_, dotted_cons _ _⟩
          rw [List.cons_append, List.cons_append, dotted_cons, dotted_cons, hu, hv,
            List.cons_append, List.cons_append, List.cons.injEq] at h
          obtain ⟨hno, huv⟩ := append_dot_inj hnames.1 hothers.1 h.2
          have hrest := ih hnames.2 hothers.2 (Nat.succ.inj hlength) (by rw [hu, hv, huv])
          rw [String.toList_inj.1 hno, hrest.1]
          exact ⟨rfl, hrest.2⟩

theorem spelled_eq_iff_of_isPlain {dots : Nat} {f g : PlacedFile} (hf : f.IsPlain dots)
    (hg : g.IsPlain dots) : f.spelled = g.spelled ↔ f.location = g.location := by
  refine ⟨fun h ↦ ?_, fun h ↦ by rw [spelled, spelled, h]⟩
  rw [spelled_of_isPlain hf, spelled_of_isPlain hg, location, location] at h
  have hnames : ∀ n ∈ f.folders.map Folder.name, '.' ∉ n.toList := by simpa using hf.folders
  have hothers : ∀ n ∈ g.folders.map Folder.name, '.' ∉ n.toList := by simpa using hg.folders
  -- The own names hold as many dots, so all further ones are those in front of names.
  have hlength : f.folders.length = g.folders.length := by
    have hcount := congrArg (List.count '.') h
    simp only [dotted_append, List.count_append, count_dotted hnames, count_dotted hothers,
      dotted_cons, dotted_nil, List.append_nil, List.count_cons_self, hf.own, hg.own,
      List.length_map] at hcount
    omega
  obtain ⟨hfolders, hown⟩ := dotted_concat_inj hnames hothers (by simpa using hlength) h
  rw [location, location, hfolders, hown]

end PlacedFile

namespace Source

open Xml Element Identifier PlacedFile

theorem toList_folderId {folders : List Folder} (hid : ∀ d ∈ folders, given d.id = none) :
    (folderId folders).toList =
      "INSTALLDIR".toList ++ (dotted (folders.map Folder.name)).map sanitizeChar := by
  induction folders using List.reverseRecOn with
  | nil => simp
  | append_singleton folders d ih =>
      have hd : given d.id = none := hid d (by simp)
      have hlegal : IsLegal "INSTALLDIR".toList := by decide
      rw [folderId_concat, directoryId, hd, Option.getD_none, toList_identifier,
        String.toList_append, String.toList_append, ih fun x hx ↦ hid x (by simp [hx]),
        List.append_assoc, List.append_assoc, ofChars_append hlegal]
      simp

theorem toList_fileId {f : PlacedFile} (hid : ∀ d ∈ f.folders, given d.id = none) :
    f.fileId.toList = "INSTALLDIR".toList ++ f.spelled := by
  have hlegal : IsLegal "INSTALLDIR".toList := by decide
  rw [PlacedFile.fileId, fileId, toList_identifier, String.toList_append, String.toList_append,
    toList_folderId hid, List.append_assoc, List.append_assoc, ofChars_append hlegal]
  simp [spelled, location]

theorem fileId_eq_iff {f g : PlacedFile} (hf : ∀ d ∈ f.folders, given d.id = none)
    (hg : ∀ d ∈ g.folders, given d.id = none) : f.fileId = g.fileId ↔ f.spelled = g.spelled := by
  rw [← String.toList_inj, toList_fileId hf, toList_fileId hg, List.append_cancel_left_eq]

theorem toList_componentId {id : String} (hid : IsLegal id.toList) :
    (componentId id).toList = "Component.".toList ++ id.toList := by
  have hlegal : IsLegal "Component.".toList := by decide
  rw [componentId, toList_identifier, String.toList_append, ofChars_append hlegal]
  congr 1
  have hrest : ∀ c ∈ id.toList, sanitizeChar c = c := by
    intro c hc
    apply sanitizeChar_of_isRest
    cases h : id.toList with
    | nil => simp [h] at hc
    | cons a s =>
        rw [h] at hid hc
        rcases List.mem_cons.1 hc with rfl | hc
        · exact isRest_of_isStart hid.1
        · exact List.all_eq_true.1 hid.2 c hc
  simpa using List.map_congr_left hrest

theorem componentId_identifier_inj {name other : String} :
    componentId (identifier name) = componentId (identifier other) ↔
      identifier name = identifier other := by
  rw [← String.toList_inj, toList_componentId (isLegal_identifier name),
    toList_componentId (isLegal_identifier other), List.append_cancel_left_eq, String.toList_inj]

theorem componentId_eq_iff (f g : PlacedFile) :
    f.componentId = g.componentId ↔ f.fileId = g.fileId :=
  componentId_identifier_inj

/-! ## The identities in a document -/

/-- The components of a document that hold files. -/
def fileComponents (root : Element) : List Element :=
  (root.named "Component").filter fun e ↦ e.children.any fun x ↦ x.name = "File"

variable {p : Package} {files : FileSource} {root : Element}

theorem named_file_fileComponent (package : Guid) (id installName : String) (path : Path) :
    (fileComponent package id installName path).named "File" =
      (fileComponent package id installName path).children := by
  simp [named_eq, fileComponent, namedAmong]

theorem Mirrors.file_ids {package : Guid} {above : List Folder} {es : List Entry}
    {elements : List Element} (h : Mirrors package files above es elements) :
    (namedAmong "File" elements).map (·.attribute? "Id") =
      (Entry.allPlaced above es).map fun f ↦ some f.fileId := by
  induction h with
  | nil => simp
  | file above f path rest more hpath hrest ih =>
      rw [namedAmong_cons, named_file_fileComponent, List.map_append, ih, Entry.allPlaced_file]
      rfl
  | directory above name inner own id children rest more hinner hrest ihinner ih =>
      rw [namedAmong_cons, named_directory_ne (by decide)]
      simp [ihinner, ih]

theorem file_ids (h : element p files = .ok root) :
    (root.named "File").map (·.attribute? "Id") = p.placedFiles.map fun f ↦ some f.fileId := by
  obtain ⟨declared, license, -, hmirrors, hdeclared, hlicense, rfl⟩ := element_eq_ok h
  obtain ⟨before, after, hfiles, htree⟩ :=
    namedAmong_withVariableComponents "File" hmirrors hdeclared (by decide)
  rw [namedAmong_eq_nil (names_variableComponents p) (by decide), List.append_nil,
    ← hfiles] at htree
  rw [named_tree_name "File" hlicense (by decide), htree]
  exact hmirrors.file_ids

theorem fileComponents_eq (h : element p files = .ok root) :
    List.Forall₂ (IsFileComponent p.guid files) p.placedFiles (fileComponents root) := by
  obtain ⟨declared, license, -, hmirrors, hdeclared, hlicense, rfl⟩ := element_eq_ok h
  obtain ⟨before, after, hfiles, htree⟩ :=
    namedAmong_withVariableComponents "Component" hmirrors hdeclared (by decide)
  have hholds : ∀ e ∈ namedAmong "Component" declared,
      (e.children.any fun x ↦ x.name = "File") = true := by
    intro e he
    obtain ⟨f, -, path, -, rfl⟩ := exists_isFileComponent_of_mem hmirrors.components he
    simp [fileComponent]
  have hholdsNot : ∀ e ∈ variableComponents p,
      ¬ (e.children.any fun x ↦ x.name = "File") = true := by
    intro e he
    obtain ⟨⟨v, index⟩, -, rfl⟩ := List.mem_map.1 he
    simp [variableComponent, conditionElements, variableElement]
  -- The components of variables hold no file, so only those of the tree are left.
  have heq : fileComponents (documentElement p (withVariableComponents p declared) license) =
      namedAmong "Component" declared := by
    rw [fileComponents, named_tree_name "Component" hlicense (by decide), htree,
      namedAmong_component_variableComponents, List.filter_append, List.filter_append,
      List.filter_eq_nil_iff.2 hholdsNot, List.append_nil, ← List.filter_append, ← hfiles,
      List.filter_eq_self]
    exact hholds
  rw [heq]
  exact hmirrors.components

theorem nodup_map_iff_of_mem {α β γ : Type} {f : α → β} {g : α → γ} {l : List α}
    (h : ∀ a ∈ l, ∀ b ∈ l, f a = f b ↔ g a = g b) : (l.map f).Nodup ↔ (l.map g).Nodup := by
  rw [List.Nodup, List.Nodup, List.pairwise_map, List.pairwise_map]
  exact List.Pairwise.iff_of_mem fun ha hb ↦ not_congr (h _ ha _ hb)

theorem identities_nodup_iff {α : Type} {place : PlacedFile → α} (h : element p files = .ok root)
    (hplace : ∀ f ∈ p.placedFiles, ∀ g ∈ p.placedFiles, f.fileId = g.fileId ↔ place f = place g) :
    (((root.named "File").map (·.attribute? "Id")).Nodup ↔ (p.placedFiles.map place).Nodup) ∧
    (((fileComponents root).map (·.attribute? "Id")).Nodup ↔ (p.placedFiles.map place).Nodup) := by
  constructor
  · rw [file_ids h]
    refine nodup_map_iff_of_mem fun f hf g hg ↦ ?_
    rw [Option.some_inj]
    exact hplace f hf g hg
  · rw [fileComponent_ids (fileComponents_eq h)]
    refine nodup_map_iff_of_mem fun f hf g hg ↦ ?_
    rw [Option.some_inj, componentId_eq_iff]
    exact hplace f hf g hg

/-- Without identifiers of their own for folders, the identifiers of files, those of their
components and the names that give the components their GUIDs are all different exactly when the
locations of the files are spelled differently. -/
theorem identities_distinct_iff (h : element p files = .ok root)
    (hid : ∀ f ∈ p.placedFiles, ∀ d ∈ f.folders, given d.id = none) :
    List.Forall₂ (IsFileComponent p.guid files) p.placedFiles (fileComponents root) ∧
    (((root.named "File").map (·.attribute? "Id")).Nodup ↔ (p.placedFiles.map spelled).Nodup) ∧
    (((fileComponents root).map (·.attribute? "Id")).Nodup ↔ (p.placedFiles.map spelled).Nodup) ∧
    ((p.placedFiles.map PlacedFile.fileId).Nodup ↔ (p.placedFiles.map spelled).Nodup) := by
  have hspelled : ∀ f ∈ p.placedFiles, ∀ g ∈ p.placedFiles,
      f.fileId = g.fileId ↔ f.spelled = g.spelled := fun f hf g hg ↦
    fileId_eq_iff (hid f hf) (hid g hg)
  obtain ⟨hfiles, hcomponents⟩ := identities_nodup_iff h hspelled
  exact ⟨fileComponents_eq h, hfiles, hcomponents, nodup_map_iff_of_mem hspelled⟩

/-- Plain files at different locations have different identities. -/
theorem identities_distinct_of_isPlain {dots : Nat} (h : element p files = .ok root)
    (hid : ∀ f ∈ p.placedFiles, ∀ d ∈ f.folders, given d.id = none)
    (hplain : ∀ f ∈ p.placedFiles, f.IsPlain dots)
    (hlocation : (p.placedFiles.map location).Nodup) :
    ((root.named "File").map (·.attribute? "Id")).Nodup ∧
    ((fileComponents root).map (·.attribute? "Id")).Nodup := by
  have hfileId : ∀ f ∈ p.placedFiles, ∀ g ∈ p.placedFiles,
      f.fileId = g.fileId ↔ f.location = g.location := fun f hf g hg ↦
    (fileId_eq_iff (hid f hf) (hid g hg)).trans
      (spelled_eq_iff_of_isPlain (hplain f hf) (hplain g hg))
  obtain ⟨hfiles, hcomponents⟩ := identities_nodup_iff h hfileId
  exact ⟨hfiles.2 hlocation, hcomponents.2 hlocation⟩

def singleDirectory (name : String) (entries : List Entry) : Package where
  name := "Tool"
  guid := Product.upgradeGuid
  version := ⟨0, [1], none, none, none, []⟩
  entries := [.directory name entries none none]

def plainPackage : Package := singleDirectory "tool" [.file ⟨"tool.exe", none, none⟩,
  .directory "data" [.file ⟨"data/tool.txt", none, none⟩] none none]

theorem plainPackage_identities_distinct :
    ∃ root, element plainPackage (.unchecked .current) = .ok root ∧
      ((root.named "File").map (·.attribute? "Id")).Nodup := by
  have h : element plainPackage (.unchecked .current) = .ok _ := rfl
  refine ⟨_, h, ?_⟩
  exact (identities_distinct_iff h (by decide)).2.1.2 (by decide)

def dottedPackage : Package := singleDirectory "a" [.file ⟨"b.txt", none, none⟩,
  .directory "b" [.file ⟨"txt", none, none⟩] none none]

/-- A dot within a name passes for the end of a name: `a/b.txt` and `a/b/txt` are two locations
with one identity. -/
theorem dottedPackage_identities_clash :
    (∀ f ∈ dottedPackage.placedFiles, ∀ d ∈ f.folders, given d.id = none) ∧
    (dottedPackage.placedFiles.map location).Nodup ∧
    ∃ root, element dottedPackage (.unchecked .current) = .ok root ∧
      ¬ ((root.named "File").map (·.attribute? "Id")).Nodup ∧
      ¬ ((fileComponents root).map (·.attribute? "Id")).Nodup ∧
      ¬ (dottedPackage.placedFiles.map PlacedFile.fileId).Nodup := by
  have h : element dottedPackage (.unchecked .current) = .ok _ := rfl
  refine ⟨by decide, by decide, _, h, ?_, ?_, by decide +kernel⟩
  · rw [file_ids h]
    decide +kernel
  · rw [fileComponent_ids (fileComponents_eq h)]
    decide +kernel

end Source

end WixAuthoring
