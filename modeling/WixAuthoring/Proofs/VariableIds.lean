import WixAuthoring.Proofs.Decimals
import WixAuthoring.Proofs.LegalIdentifiers

namespace WixAuthoring

/-!
# The identifiers of variables

A variable is numbered, and the number stands behind the last dot of its identifier. So variables are
told apart whatever they are called. They are told apart from files by how their identifiers begin: the
identifier of a file begins like that of its outermost folder, or of one that was given.
-/

namespace Identifier

/-- What is left of a name when other characters are replaced was there before. -/
theorem prefix_of_prefix_map_sanitizeChar {word s : List Char} (hword : '_' ∉ word)
    (h : word <+: s.map sanitizeChar) : word <+: s := by
  induction word generalizing s with
  | nil => exact List.nil_prefix
  | cons w word ih =>
      rw [List.mem_cons, not_or] at hword
      cases s with
      | nil => exact absurd h (by simp)
      | cons c s =>
          rw [List.map_cons, List.cons_prefix_cons] at h
          obtain ⟨rfl, hrest⟩ := h
          have hkept : sanitizeChar c = c := by
            by_contra hreplaced
            apply hword.1
            rw [sanitizeChar] at hreplaced ⊢
            split at hreplaced
            · exact absurd rfl hreplaced
            · next hc => rw [if_neg hc]
          rw [List.cons_prefix_cons]
          exact ⟨hkept, ih hword.2 hrest⟩

theorem prefix_of_prefix_ofChars {word s : List Char} (hne : word ≠ []) (hword : '_' ∉ word)
    (h : word <+: ofChars s) : word <+: s := by
  apply prefix_of_prefix_map_sanitizeChar hword
  obtain ⟨w, word, rfl⟩ := List.exists_cons_of_ne_nil hne
  have hfirst : '_' ≠ w := fun heq ↦ hword (heq ▸ List.mem_cons_self)
  rw [ofChars] at h
  cases hs : s.map sanitizeChar with
  | nil =>
      rw [hs, withStart, List.cons_prefix_cons] at h
      exact absurd h.1.symm hfirst
  | cons c s =>
      rw [hs, withStart] at h
      split at h
      · exact h
      · exact absurd (List.cons_prefix_cons.1 h).1.symm hfirst

end Identifier

theorem disjoint_map_of_ne {α β γ : Type} {l : List α} {k : List β} {f : α → γ} {g : β → γ}
    (h : ∀ a ∈ l, ∀ b ∈ k, f a ≠ g b) : (l.map f).Disjoint (k.map g) := by
  intro c hl hk
  obtain ⟨a, ha, rfl⟩ := List.mem_map.1 hl
  obtain ⟨b, hb, heq⟩ := List.mem_map.1 hk
  exact h a ha b hb heq.symm

theorem prefix_of_prefix_append_cons {α : Type} {word s t : List α} {a : α} (ha : a ∉ word)
    (h : word <+: s ++ a :: t) : word <+: s := by
  rcases Nat.le_total word.length s.length with hle | hle
  · exact List.prefix_of_prefix_length_le h (List.prefix_append _ _) hle
  · obtain ⟨more, rfl⟩ := List.prefix_of_prefix_length_le (List.prefix_append _ _) h hle
    rw [List.prefix_append_right_inj] at h
    cases more with
    | nil => simp
    | cons b more => simp [(List.cons_prefix_cons.1 h).1] at ha

namespace Source

open Xml Element Identifier Text

variable {p : Package} {files : FileSource} {root : Element}

/-! ## The number of a variable -/

theorem dot_notMem_repr (n : Nat) : '.' ∉ n.repr.toList := fun h ↦
  absurd (isDigit_of_mem_repr h) (by decide)

/-- The identifier of a variable ends in a dot and its number. -/
theorem exists_toList_variableId (v : EnvironmentVariable) (index : Nat) : ∃ front,
    (variableId v index).toList = "Env.".toList ++ (front ++ '.' :: index.repr.toList) := by
  have hlegal : IsLegal "Env.".toList := by decide
  have hdigits : index.repr.toList.map sanitizeChar = index.repr.toList := by
    have hkept : ∀ c ∈ index.repr.toList, sanitizeChar c = c := fun c hc ↦
      sanitizeChar_of_isRest (by simp [isRest, isAlphanum_of_mem_repr hc])
    rw [List.map_congr_left hkept, List.map_id']
  have hname : "Env." ++ v.name ++ "." ++ (if v.system then "System" else "User") ++ "." ++
      toString index =
      "Env." ++ (v.name ++ "." ++ (if v.system then "System" else "User") ++ "." ++ index.repr) := by
    simp only [String.append_assoc]
    rfl
  refine ⟨(v.name ++ "." ++ (if v.system then "System" else "User")).toList.map sanitizeChar, ?_⟩
  rw [variableId, hname, toList_identifier, String.toList_append, ofChars_append hlegal]
  congr 1
  rw [String.toList_append, String.toList_append, List.map_append, hdigits, List.map_append,
    List.append_assoc]
  rfl

theorem append_dot_inj_right {x y u v : List Char} (hu : '.' ∉ u) (hv : '.' ∉ v)
    (h : x ++ '.' :: u = y ++ '.' :: v) : u = v := by
  have hreverse := congrArg List.reverse h
  simp only [List.reverse_append, List.reverse_cons, List.append_assoc, List.singleton_append]
    at hreverse
  have hends := PlacedFile.append_dot_inj (by simpa using hu) (by simpa using hv) hreverse
  exact List.reverse_injective hends.1

/-- Variables with different numbers have different identifiers. -/
theorem index_eq_of_variableId_eq {v w : EnvironmentVariable} {i j : Nat}
    (h : variableId v i = variableId w j) : i = j := by
  obtain ⟨front, hv⟩ := exists_toList_variableId v i
  obtain ⟨other, hw⟩ := exists_toList_variableId w j
  rw [← String.toList_inj, hv, hw, List.append_cancel_left_eq] at h
  have hdigits := append_dot_inj_right (dot_notMem_repr i) (dot_notMem_repr j) h
  rw [← numeral_repr i, hdigits, numeral_repr]

theorem nodup_map_numberedVariables {α : Type} (p : Package) (id : EnvironmentVariable → Nat → α)
    (hid : ∀ v w i j, id v i = id w j → i = j) :
    ((numberedVariables p).map fun (v, index) ↦ id v index).Nodup := by
  have hnumbers : ((numberedVariables p).map Prod.snd).Nodup := by
    rw [numberedVariables, List.zipIdx_map_snd]
    exact List.nodup_range'
  rw [List.Nodup, List.pairwise_map] at hnumbers ⊢
  exact hnumbers.imp fun hne heq ↦ hne (hid _ _ _ _ heq)

/-! ## How identifiers begin -/

/-- Holds of an identifier that begins like those of variables. -/
def BeginsLikeVariable (id : String) : Prop := "Env".toList <+: id.toList

instance (id : String) : Decidable (BeginsLikeVariable id) :=
  inferInstanceAs (Decidable (_ <+: _))

theorem beginsLikeVariable_variableId (v : EnvironmentVariable) (index : Nat) :
    BeginsLikeVariable (variableId v index) := by
  obtain ⟨front, hid⟩ := exists_toList_variableId v index
  rw [BeginsLikeVariable, hid]
  exact ⟨'.' :: (front ++ '.' :: index.repr.toList), rfl⟩

/-- What lies in a folder begins like a variable only if the folder does. -/
theorem beginsLikeVariable_of_below {parent name : String}
    (h : BeginsLikeVariable (identifier (parent ++ "." ++ name))) : BeginsLikeVariable parent := by
  have hchars : (parent ++ "." ++ name).toList = parent.toList ++ '.' :: name.toList := by simp
  rw [BeginsLikeVariable, toList_identifier, hchars] at h
  exact prefix_of_prefix_append_cons (by decide) (prefix_of_prefix_ofChars (by decide) (by decide) h)

theorem not_beginsLikeVariable_folderId {folders : List Folder}
    (hgiven : ∀ d ∈ folders, ∀ id, given d.id = some id → ¬BeginsLikeVariable id) :
    ¬BeginsLikeVariable (folderId folders) := by
  induction folders using List.reverseRecOn with
  | nil => decide
  | append_singleton folders d ih =>
      have habove := ih fun x hx ↦ hgiven x (List.mem_append_left _ hx)
      rw [folderId_concat, directoryId]
      cases hid : given d.id with
      | none => exact fun h ↦ habove (beginsLikeVariable_of_below h)
      | some id => exact hgiven d (by simp) id hid

end Source

/-- The folders around a file are directories that the package declares. -/
theorem Entry.mem_allGivenIds_of_mem_folders {above : List Folder} {es : List Entry} {f : PlacedFile}
    (hf : f ∈ allPlaced above es) {d : Folder} (hd : d ∈ f.folders) :
    d ∈ above ∨ ∀ id, given d.id = some id → id ∈ allGivenIds es := by
  match es with
  | [] => simp at hf
  | .file own :: rest =>
      rw [allPlaced_file, List.mem_cons] at hf
      rcases hf with rfl | hf
      · exact .inl hd
      · exact (mem_allGivenIds_of_mem_folders hf hd).imp_right fun h id hid ↦ by
          simp [allGivenIds, h id hid]
  | .directory name inner own id :: rest =>
      rw [allPlaced_directory, List.mem_append] at hf
      rcases hf with hf | hf
      · rcases mem_allGivenIds_of_mem_folders hf hd with hd | h
        · rcases List.mem_append.1 hd with hd | hd
          · exact .inl hd
          · obtain rfl := List.mem_singleton.1 hd
            exact .inr fun i hi ↦ by simp [allGivenIds, givenIds, show given id = some i from hi]
        · exact .inr fun i hi ↦ by simp [allGivenIds, givenIds, h i hi]
      · exact (mem_allGivenIds_of_mem_folders hf hd).imp_right fun h i hi ↦ by
          simp [allGivenIds, h i hi]
  | .property _ :: rest | .environment _ :: rest | .setProperty _ :: rest
  | .customAction _ :: rest | .feature _ :: rest | .scalar _ :: rest =>
      have hf : f ∈ allPlaced above rest := by simpa [allPlaced, placed] using hf
      exact (mem_allGivenIds_of_mem_folders hf hd).imp_right fun h id hid ↦ by
        simp [allGivenIds, h id hid]

namespace Source

open Xml Element Identifier

variable {p : Package} {files : FileSource} {root : Element}

theorem not_beginsLikeVariable_fileId
    (hgiven : ∀ id ∈ Entry.allGivenIds p.entries, ¬BeginsLikeVariable id) {f : PlacedFile}
    (hf : f ∈ p.placedFiles) : ¬BeginsLikeVariable f.fileId := by
  have hfolders : ∀ d ∈ f.folders, ∀ id, given d.id = some id → ¬BeginsLikeVariable id := by
    intro d hd id hid
    rcases Entry.mem_allGivenIds_of_mem_folders hf hd with hnone | hdeclared
    · exact absurd hnone List.not_mem_nil
    · exact hgiven id (Entry.allGivenIds_directories_subset p (hdeclared id hid))
  exact fun h ↦ not_beginsLikeVariable_folderId hfolders (beginsLikeVariable_of_below h)

/-! ## Variables and files -/

theorem variableComponent_ids (h : element p files = .ok root) :
    ((settings root).map fun x ↦ x.component.attribute? "Id") =
      (numberedVariables p).map fun (v, index) ↦ some (componentId (variableId v index)) := by
  rw [settings_eq h, List.map_map]
  rfl

theorem componentId_variableId_ne
    (hgiven : ∀ id ∈ Entry.allGivenIds p.entries, ¬BeginsLikeVariable id) {f : PlacedFile}
    (hf : f ∈ p.placedFiles) (v : EnvironmentVariable) (index : Nat) :
    variableId v index ≠ f.fileId ∧ componentId (variableId v index) ≠ f.componentId := by
  have hne : variableId v index ≠ f.fileId := fun heq ↦
    not_beginsLikeVariable_fileId hgiven hf (heq ▸ beginsLikeVariable_variableId v index)
  exact ⟨hne, fun heq ↦ hne (componentId_identifier_inj.1 heq)⟩

/-- Variables have identifiers of their own, and so have their components, unless a directory is given
an identifier that begins like theirs: no two variables share one, and no variable shares one with a
file. -/
theorem variable_ids_apart (h : element p files = .ok root)
    (hgiven : ∀ id ∈ Entry.allGivenIds p.entries, ¬BeginsLikeVariable id) :
    (root.named "Environment").length = p.environment.length ∧
    (settings root).length = p.environment.length ∧
    ((root.named "Environment").map (·.attribute? "Id")).Nodup ∧
    ((settings root).map fun x ↦ x.component.attribute? "Id").Nodup ∧
    ((root.named "Environment").map (·.attribute? "Id")).Disjoint
      ((root.named "File").map (·.attribute? "Id")) ∧
    ((settings root).map fun x ↦ x.component.attribute? "Id").Disjoint
      ((fileComponents root).map (·.attribute? "Id")) := by
  have hids := environment_ids h
  have hcomponents := variableComponent_ids h
  refine ⟨?_, ?_, ?_, ?_, ?_, ?_⟩
  · simpa [numberedVariables] using congrArg List.length hids
  · simpa [numberedVariables] using congrArg List.length hcomponents
  · rw [hids]
    exact nodup_map_numberedVariables p (fun v index ↦ some (variableId v index))
      fun _ _ _ _ heq ↦ index_eq_of_variableId_eq (Option.some.inj heq)
  · rw [hcomponents]
    exact nodup_map_numberedVariables p (fun v index ↦ some (componentId (variableId v index)))
      fun _ _ _ _ heq ↦
        index_eq_of_variableId_eq (componentId_identifier_inj.1 (Option.some.inj heq))
  · rw [hids, file_ids h]
    refine disjoint_map_of_ne ?_
    rintro ⟨v, index⟩ - f hf heq
    exact (componentId_variableId_ne hgiven hf v index).1 (Option.some.inj heq)
  · rw [hcomponents, fileComponent_ids (fileComponents_eq h)]
    refine disjoint_map_of_ne ?_
    rintro ⟨v, index⟩ - f hf heq
    exact (componentId_variableId_ne hgiven hf v index).2 (Option.some.inj heq)

/-- A package with files and variables whose names look alike once characters are replaced. -/
def alikePackage : Package where
  name := "Tool"
  guid := Product.upgradeGuid
  version := ⟨0, [1], none, none, none, []⟩
  entries := [.environment { feature := none, name := "é", value := "" },
    .directory "Env" [.file ⟨"_.User.1", none, none⟩] none (some "E"),
    .environment { feature := none, name := "∅", value := "" }]

theorem alikePackage_ids_apart :
    ∃ root, element alikePackage (.unchecked .current) = .ok root ∧
      ((root.named "Environment").map (·.attribute? "Id")).Nodup ∧
      ((root.named "Environment").map (·.attribute? "Id")).Disjoint
        ((root.named "File").map (·.attribute? "Id")) := by
  have h : element alikePackage (.unchecked .current) = .ok _ := rfl
  obtain ⟨-, -, hnodup, -, hdisjoint, -⟩ := variable_ids_apart h (by decide)
  exact ⟨_, h, hnodup, hdisjoint⟩

end Source

end WixAuthoring
