import WixAuthoring.Package.Basic
import WixAuthoring.Proofs.Decimals
import WixAuthoring.Proofs.Escapes
import WixAuthoring.Proofs.Walks

namespace WixAuthoring

/-!
# What is drawn from texts is text

Identifiers, GUIDs and numbers hold only characters that a document can hold, and so do joined
texts, parts of texts, and the paths of files.
-/

namespace Xml

open Text

theorem isCharacter_of_printable {c : Char} (h : 0x20 ≤ c.toNat ∧ c.toNat ≤ 0x7E) :
    isCharacter c = true := by
  have hlow : 0x20 ≤ c.toNat ∧ c.toNat ≤ 0xD7FF := ⟨h.1, by omega⟩
  simp [isCharacter, hlow]

theorem range_of_isAlphanum {c : Char} (h : c.isAlphanum = true) : 48 ≤ c.toNat ∧ c.toNat ≤ 122 := by
  delta Char.isAlphanum Char.isAlpha Char.isUpper Char.isLower Char.isDigit at h
  simp only [Bool.or_eq_true, Bool.and_eq_true, decide_eq_true_eq, UInt32.le_iff_toNat_le,
    ge_iff_le] at h
  change ((65 ≤ c.toNat ∧ c.toNat ≤ 90) ∨ (97 ≤ c.toNat ∧ c.toNat ≤ 122)) ∨
    (48 ≤ c.toNat ∧ c.toNat ≤ 57) at h
  omega

theorem isCharacter_of_isAlphanum {c : Char} (h : c.isAlphanum = true) : isCharacter c = true := by
  have hrange := range_of_isAlphanum h
  apply isCharacter_of_printable
  omega

/-! ## Joined texts and their parts -/

@[simp] theorem isText_empty : IsText "" := by decide

@[simp] theorem isText_append {s t : String} : IsText (s ++ t) ↔ IsText s ∧ IsText t := by
  rw [IsText, String.toList_append, List.forall_mem_append]
  rfl

theorem isText_join {separator : String} (hseparator : IsText separator) (l : List String)
    (h : ∀ s ∈ l, IsText s) : IsText (join separator l) :=
  forall_mem_join hseparator l h

/-- A piece holds characters of the text, and no separator. -/
theorem mem_of_mem_splitChars {separates : Char → Bool} {s piece : List Char} {c : Char}
    (hpiece : piece ∈ splitChars separates s) (hc : c ∈ piece) : c ∈ s ∧ separates c = false := by
  induction s generalizing piece with
  | nil =>
      rw [splitChars, List.mem_singleton] at hpiece
      exact absurd (hpiece ▸ hc) List.not_mem_nil
  | cons x s ih =>
      have hlater {piece : List Char} (hpiece : piece ∈ splitChars separates s) (hc : c ∈ piece) :
          c ∈ x :: s ∧ separates c = false :=
        (ih hpiece hc).imp_left (List.mem_cons_of_mem x)
      rw [splitChars] at hpiece
      split at hpiece
      · rcases List.mem_cons.1 hpiece with rfl | hpiece
        · exact absurd hc List.not_mem_nil
        · exact hlater hpiece hc
      · next hx =>
          cases hpieces : splitChars separates s with
          | nil => exact absurd hpieces (splitChars_ne_nil separates s)
          | cons first pieces =>
              rw [hpieces, consToFirst] at hpiece
              rcases List.mem_cons.1 hpiece with rfl | hpiece
              · rcases List.mem_cons.1 hc with rfl | hc
                · exact ⟨List.mem_cons_self, Bool.not_eq_true _ ▸ hx⟩
                · exact hlater (hpieces ▸ List.mem_cons_self) hc
              · exact hlater (hpieces ▸ List.mem_cons_of_mem first hpiece) hc

theorem isText_of_mem_split {separates : Char → Bool} {s piece : String} (h : IsText s)
    (hpiece : piece ∈ split separates s) : IsText piece := by
  obtain ⟨chars, hchars, rfl⟩ := List.mem_map.1 hpiece
  intro c hc
  rw [String.toList_ofList] at hc
  exact h c (mem_of_mem_splitChars hchars hc).1

theorem isText_of_given {s : Option String} {t : String} (h : ∀ t ∈ s.toList, IsText t)
    (ht : given s = some t) : IsText t :=
  h t (Option.mem_toList.2 (eq_some_of_given ht))

theorem isText_getD_given {s : Option String} {other : String} (h : ∀ t ∈ s.toList, IsText t)
    (hother : IsText other) : IsText ((given s).getD other) := by
  cases hs : given s with
  | none => exact hother
  | some t => exact isText_of_given h hs

/-! ## Numbers, identifiers and GUIDs -/

@[simp] theorem isText_repr (n : Nat) : IsText n.repr := fun _ hc ↦
  isCharacter_of_isAlphanum (isAlphanum_of_mem_repr hc)

@[simp] theorem isText_int (n : Int) : IsText n.repr := by
  have hsign : IsText "-" := by decide
  cases n with
  | ofNat n => exact isText_repr n
  | negSucc n => exact isText_append.2 ⟨hsign, isText_repr (n + 1)⟩

@[simp] theorem isText_identifier (name : String) : IsText (identifier name) := by
  have hrest : ∀ c : Char, Identifier.isRest c = true → isCharacter c = true := by
    intro c hc
    simp only [Identifier.isRest, Bool.or_eq_true, beq_iff_eq] at hc
    rcases hc with (hc | rfl) | rfl
    · exact isCharacter_of_isAlphanum hc
    · decide
    · decide
  intro c hc
  rw [toList_identifier] at hc
  have hlegal := Identifier.isLegal_ofChars name.toList
  cases h : Identifier.ofChars name.toList with
  | nil => exact absurd (h ▸ hc) List.not_mem_nil
  | cons first s =>
      rw [h] at hc hlegal
      rcases List.mem_cons.1 hc with rfl | hc
      · exact hrest c (Identifier.isRest_of_isStart hlegal.1)
      · exact hrest c (List.all_eq_true.1 hlegal.2 c hc)

theorem exists_of_mem_hexadecimal {width n : Nat} {c : Char} (h : c ∈ hexadecimal width n) :
    ∃ digit < 16, c = hexDigit digit := by
  induction width generalizing n with
  | zero => exact absurd h List.not_mem_nil
  | succ width ih =>
      rw [hexadecimal, List.mem_append, List.mem_singleton] at h
      rcases h with h | rfl
      · exact ih h
      · exact ⟨n % 16, Nat.mod_lt n (by decide), rfl⟩

theorem isCharacter_of_mem_hexadecimal {octets : List UInt8} {c : Char}
    (h : c ∈ Guid.hexadecimal octets) : isCharacter c = true := by
  have hdigits : ∀ digit < 16, isCharacter (hexDigit digit).toUpper = true := by decide
  obtain ⟨octet, -, h⟩ := List.mem_flatMap.1 h
  obtain ⟨d, hd, rfl⟩ := List.mem_map.1 h
  obtain ⟨digit, hdigit, rfl⟩ := exists_of_mem_hexadecimal hd
  exact hdigits digit hdigit

@[simp] theorem isText_braced (g : Guid) : IsText g.braced := by
  have hgroup (octets : List UInt8) : (Guid.hexadecimal octets).all isCharacter = true :=
    List.all_eq_true.2 fun _ hc ↦ isCharacter_of_mem_hexadecimal hc
  have hmarks : isCharacter '\x7b' = true ∧ isCharacter '-' = true ∧ isCharacter '\x7d' = true := by
    decide
  rw [IsText, Guid.braced, String.toList_ofList, ← List.all_eq_true]
  simp only [List.all_append, List.all_cons, List.all_nil, hgroup, hmarks, Bool.and_self]

theorem isText_installerText (v : Version) : IsText v.installerText := by
  refine isText_join (by decide) _ fun s hs ↦ ?_
  obtain ⟨n, -, rfl⟩ := List.mem_map.1 hs
  exact isText_repr n

end Xml

/-! ## Paths -/

open Xml

theorem Path.isText_text {p : Path} (h : ∀ s ∈ p.parts, IsText s) : IsText p.text := by
  have hslash : IsText "/" ∧ IsText "//" ∧ IsText "." := by decide
  have hparts := isText_join hslash.1 p.parts h
  rw [Path.text]
  split
  · split
    · exact hslash.2.2
    · exact hparts
  · exact isText_append.2 ⟨hslash.1, hparts⟩
  · exact isText_append.2 ⟨hslash.2.1, hparts⟩

theorem Path.isText_of_mem_names {separates : Char → Bool} {s : String} (h : IsText s) :
    ∀ name ∈ Path.names separates s, IsText name :=
  fun _ hname ↦ isText_of_mem_split h (List.mem_filter.1 hname).1

theorem Path.isText_of_mem_source {root : Path} (hroot : ∀ name ∈ root.parts, IsText name)
    {s : String} (hs : IsText s) : ∀ name ∈ (root.source s).parts, IsText name := by
  rw [Path.source_parts]
  exact List.forall_mem_append.2 ⟨hroot, Path.isText_of_mem_names hs⟩

/-- Holds when the paths of files are texts a document can hold. -/
def FileSource.FindsTexts (files : FileSource) : Prop :=
  ∀ source path, IsText source → files.find source = .ok path → IsText path.text

theorem FileSource.findsTexts_unchecked {root : Path} (hroot : ∀ name ∈ root.parts, IsText name) :
    (FileSource.unchecked root).FindsTexts := by
  intro source path hsource h
  obtain rfl := Except.ok.inj h
  exact Path.isText_text (Path.isText_of_mem_source hroot hsource)

theorem FileSource.findsTexts_checked {s : Store} {here : Location} {root : Path}
    (hs : s.LinksHold IsText) (hhere : ∀ name ∈ here, IsText name)
    (hroot : ∀ name ∈ root.parts, IsText name) :
    (FileSource.checked s here root).FindsTexts := by
  intro source path hsource h
  have hpath := Path.isText_text (Path.isText_of_mem_source hroot hsource)
  change s.requireFile here (root.source source) = .ok path at h
  obtain ⟨place, hfile, rfl⟩ := Store.requireFile_eq_ok h
  refine Path.isText_text (Store.forall_mem_file? hs hhere (fun name hname ↦ ?_) hfile)
  exact isText_of_mem_split hpath hname

end WixAuthoring
