import WixAuthoring.Xml.Reading
import WixAuthoring.Xml.Writing

namespace WixAuthoring.Xml

/-!
# Escapes are undone

A character is written as it is, or by a reference to it. A reader that meets the one or the other
goes on with that character, so a text and a value are read back character for character.
-/

open Text

/-- Holds of a text that a document can hold. -/
def IsText (s : String) : Prop := ∀ c ∈ s.toList, isCharacter c = true

instance (s : String) : Decidable (IsText s) :=
  decidable_of_iff (s.toList.all isCharacter = true) List.all_eq_true

/-- Holds of the characters between the two marks of a reference that is written. -/
def isReferenceChar (c : Char) : Bool := c == '#' || c.isAlphanum

/-- Holds of a way to write a character that is a reference to it. -/
def IsReference (c : Char) (written : List Char) : Prop :=
  ∃ word, written = '&' :: word ++ [';'] ∧ word.all isReferenceChar = true ∧
    reference? word = some c

theorem IsReference.not_mem {c x : Char} {written : List Char} (h : IsReference c written)
    (hx : x ∉ ['&', ';']) (hword : isReferenceChar x = false) : x ∉ written := by
  obtain ⟨word, rfl, hall, -⟩ := h
  intro hmem
  simp only [List.mem_cons, List.mem_append, List.not_mem_nil, or_false, not_or] at hx hmem
  rcases hmem with (hamp | hmem) | hend
  · exact hx.1 hamp
  · rw [List.all_eq_true.1 hall x hmem] at hword
    exact absurd hword (by decide)
  · exact hx.2 hend

theorem escapeChar_cases (c : Char) :
    (escapeChar c = [c] ∧ c ≠ '&' ∧ c ≠ '<' ∧ c ≠ '>') ∨ IsReference c (escapeChar c) := by
  by_cases hamp : c = '&'
  · subst c
    exact .inr ⟨"amp".toList, by decide, by decide, by decide⟩
  by_cases hlt : c = '<'
  · subst c
    exact .inr ⟨"lt".toList, by decide, by decide, by decide⟩
  by_cases hgt : c = '>'
  · subst c
    exact .inr ⟨"gt".toList, by decide, by decide, by decide⟩
  exact .inl ⟨by simp [escapeChar, hamp, hlt, hgt], hamp, hlt, hgt⟩

theorem escapeAttributeChar_cases (c : Char) :
    (escapeAttributeChar c = [c] ∧ c ≠ '\x22' ∧ c ≠ '&' ∧ c ≠ '<' ∧ (isSpace c = true → c = ' ')) ∨
      IsReference c (escapeAttributeChar c) := by
  by_cases hquote : c = '\x22'
  · subst c
    exact .inr ⟨"quot".toList, by decide, by decide, by decide⟩
  by_cases hreturn : c = '\r'
  · subst c
    exact .inr ⟨"#13".toList, by decide, by decide, by decide⟩
  by_cases hfeed : c = '\n'
  · subst c
    exact .inr ⟨"#10".toList, by decide, by decide, by decide⟩
  by_cases htab : c = '\t'
  · subst c
    exact .inr ⟨"#09".toList, by decide, by decide, by decide⟩
  have hwritten : escapeAttributeChar c = escapeChar c := by
    simp [escapeAttributeChar, hquote, hreturn, hfeed, htab]
  rw [hwritten]
  rcases escapeChar_cases c with ⟨hsame, hamp, hlt, -⟩ | href
  · have hspace : isSpace c = true → c = ' ' := by simp [isSpace, hreturn, hfeed, htab]
    exact .inl ⟨hsame, hquote, hamp, hlt, hspace⟩
  · exact .inr href

/-! ## Values -/

theorem readValue_word (quote : Char) {word kept s : List Char} {c : Char}
    (hword : word.all isReferenceChar = true)
    (hc : reference? (kept.reverse ++ word) = some c) :
    readValue quote (some kept) (word ++ ';' :: s) =
      (readValue quote none s).map fun (value, rest) ↦ (c :: value, rest) := by
  induction word generalizing kept with
  | nil =>
      rw [List.append_nil] at hc
      rw [List.nil_append, readValue, if_pos rfl, hc]
      cases readValue quote none s <;> rfl
  | cons w word ih =>
      rw [List.all_cons, Bool.and_eq_true] at hword
      have hw : w ≠ ';' := by
        rintro rfl
        exact absurd hword.1 (by decide)
      rw [List.cons_append, readValue, if_neg hw]
      exact ih hword.2 (by simpa using hc)

theorem readValue_escapeAttributeChar {c : Char} (hc : isCharacter c = true) (s : List Char) :
    readValue '\x22' none (escapeAttributeChar c ++ s) =
      (readValue '\x22' none s).map fun (value, rest) ↦ (c :: value, rest) := by
  rcases escapeAttributeChar_cases c with
    ⟨hsame, hquote, hamp, hlt, hspace⟩ | ⟨word, href, hword, hread⟩
  · have hkept : (if isSpace c = true then ' ' else c) = c := by
      split
      · exact (hspace ‹_›).symm
      · rfl
    have hplain : (c = '<' || !isCharacter c) = false := by simp [hlt, hc]
    rw [hsame, List.singleton_append, readValue, if_neg hquote, if_neg hamp, hplain, hkept]
    cases readValue '\x22' none s <;> rfl
  · rw [href, List.append_assoc, List.cons_append, List.singleton_append, readValue,
      if_neg (by decide), if_pos rfl]
    exact readValue_word '\x22' hword (by simpa using hread)

theorem readValue_escapeAttribute {value : String} (hvalue : IsText value) (s : List Char) :
    readValue '\x22' none (escapeAttribute value ++ '\x22' :: s) = some (value.toList, s) := by
  rw [escapeAttribute]
  rw [IsText] at hvalue
  generalize value.toList = chars at hvalue ⊢
  induction chars with
  | nil => simp [readValue]
  | cons c chars ih =>
      rw [List.forall_mem_cons] at hvalue
      rw [List.flatMap_cons, List.append_assoc, readValue_escapeAttributeChar hvalue.1, ih hvalue.2]
      rfl

/-! ## Character data -/

theorem readData_word {word kept s : List Char} {c : Char}
    (hword : word.all isReferenceChar = true)
    (hc : reference? (kept.reverse ++ word) = some c) :
    readData (some kept) (word ++ ';' :: s) =
      (readData none s).map fun (data, rest) ↦ (c :: data, rest) := by
  induction word generalizing kept with
  | nil =>
      rw [List.append_nil] at hc
      rw [List.nil_append, readData, if_pos rfl, hc]
      cases readData none s <;> rfl
  | cons w word ih =>
      rw [List.all_cons, Bool.and_eq_true] at hword
      have hw : w ≠ ';' := by
        rintro rfl
        exact absurd hword.1 (by decide)
      rw [List.cons_append, readData, if_neg hw]
      exact ih hword.2 (by simpa using hc)

theorem readData_cons {c : Char} {s : List Char} (hamp : c ≠ '&') (hlt : c ≠ '<')
    (hc : isCharacter c = true) (hend : after? [']', ']', '>'] (c :: s) = none) :
    readData none (c :: s) = (readData none s).map fun (data, rest) ↦ (c :: data, rest) := by
  have hplain : (!isCharacter c || (after? [']', ']', '>'] (c :: s)).isSome) = false := by
    simp [hc, hend]
  rw [readData, if_neg hlt, if_neg hamp, hplain]
  cases readData none s <;> rfl

theorem readData_escapeChar {c : Char} {s : List Char} (hc : isCharacter c = true)
    (hend : after? [']', ']', '>'] (escapeChar c ++ s) = none) :
    readData none (escapeChar c ++ s) =
      (readData none s).map fun (data, rest) ↦ (c :: data, rest) := by
  rcases escapeChar_cases c with ⟨hsame, hamp, hlt, -⟩ | ⟨word, href, hword, hread⟩
  · rw [hsame, List.singleton_append] at hend ⊢
    exact readData_cons hamp hlt hc hend
  · rw [href, List.append_assoc, List.cons_append, List.singleton_append, readData,
      if_neg (by decide), if_pos rfl]
    exact readData_word hword (by simpa using hread)

theorem not_mem_escapeChar (c : Char) : '>' ∉ escapeChar c := by
  rcases escapeChar_cases c with ⟨hsame, -, -, hgt⟩ | href
  · rw [hsame, List.mem_singleton]
    exact Ne.symm hgt
  · exact href.not_mem (by decide) (by decide)

/-- The mark that may not stand in character data does not come about by escapes. -/
theorem after?_escaped (chars s : List Char) :
    after? [']', ']', '>'] (chars.flatMap escapeChar ++ '<' :: s) = none := by
  have hgt : '>' ∉ chars.flatMap escapeChar := by
    intro h
    obtain ⟨c, -, hc⟩ := List.mem_flatMap.1 h
    exact not_mem_escapeChar c hc
  cases h : after? [']', ']', '>'] (chars.flatMap escapeChar ++ '<' :: s) with
  | none => rfl
  | some rest =>
      -- The mark holds no `<` and the escapes no `>`, so it can end on neither side of the bracket.
      rcases List.append_eq_append_iff.1 (eq_append_of_after? h) with ⟨u, hmark, hu⟩ | ⟨u, hmark, -⟩
      · cases u with
        | nil =>
            rw [List.append_nil] at hmark
            exact absurd (hmark ▸ by simp) hgt
        | cons x u =>
            have hx : '<' ∈ [']', ']', '>'] := by
              rw [hmark, ← (List.cons.inj hu).1]
              simp
            exact absurd hx (by decide)
      · exact absurd (hmark ▸ by simp) hgt

theorem readData_escape {text : String} (htext : IsText text) (s : List Char) :
    readData none (escape text ++ '<' :: s) = some (text.toList, '<' :: s) := by
  rw [escape]
  rw [IsText] at htext
  generalize text.toList = chars at htext ⊢
  induction chars with
  | nil => simp [readData]
  | cons c chars ih =>
      rw [List.forall_mem_cons] at htext
      have hend := after?_escaped (c :: chars) s
      rw [List.flatMap_cons, List.append_assoc] at hend ⊢
      rw [readData_escapeChar htext.1 hend, ih htext.2]
      rfl

/-! ## Line ends -/

theorem lineEnds_of_not_mem {s : List Char} (h : '\r' ∉ s) : lineEnds s = s := by
  induction s with
  | nil => rfl
  | cons c s ih =>
      rw [List.mem_cons, not_or] at h
      rw [lineEnds, ih h.2]
      · intro t hc
        exact absurd hc.symm h.1
      · intro hc
        exact absurd hc.symm h.1

theorem return_not_mem_escapeAttribute (value : String) : '\r' ∉ escapeAttribute value := by
  intro h
  obtain ⟨c, -, hc⟩ := List.mem_flatMap.1 h
  rcases escapeAttributeChar_cases c with ⟨hsame, -, -, -, hspace⟩ | href
  · rw [hsame, List.mem_singleton] at hc
    subst hc
    exact absurd (hspace rfl) (by decide)
  · exact href.not_mem (by decide) (by decide) hc

theorem return_not_mem_escape {text : String} (h : '\r' ∉ text.toList) : '\r' ∉ escape text := by
  intro hmem
  obtain ⟨c, hctext, hc⟩ := List.mem_flatMap.1 hmem
  rcases escapeChar_cases c with ⟨hsame, -⟩ | href
  · rw [hsame, List.mem_singleton] at hc
    exact h (hc ▸ hctext)
  · exact href.not_mem (by decide) (by decide) hc

end WixAuthoring.Xml
