namespace WixAuthoring

/-!
# Identifiers

Rows of an installer database are named by identifiers: letters, digits, underscores and dots, the
first one a letter or an underscore. Any display name is turned into one.
-/

namespace Identifier

def isStart (c : Char) : Bool := c.isAlpha || c == '_'

def isRest (c : Char) : Bool := c.isAlphanum || c == '_' || c == '.'

def IsLegal : List Char → Prop
  | [] => False
  | c :: s => isStart c = true ∧ s.all isRest = true

instance : DecidablePred IsLegal
  | [] => inferInstanceAs (Decidable False)
  | _ :: _ => inferInstanceAs (Decidable (_ ∧ _))

/-- An underscore stands in for whatever an identifier must not hold. -/
def sanitizeChar (c : Char) : Char := if isRest c then c else '_'

/-- An underscore goes in front of a text that cannot begin an identifier. -/
def withStart : List Char → List Char
  | [] => ['_']
  | c :: s => if isStart c then c :: s else '_' :: c :: s

def ofChars (name : List Char) : List Char := withStart (name.map sanitizeChar)

end Identifier

/-- The identifier of a display name. -/
def identifier (name : String) : String := String.ofList (Identifier.ofChars name.toList)

@[simp] theorem toList_identifier (name : String) :
    (identifier name).toList = Identifier.ofChars name.toList := by
  simp [identifier]

namespace Identifier

theorem isRest_of_isStart {c : Char} (h : isStart c = true) : isRest c = true := by
  simp only [isStart, isRest, Char.isAlphanum, Bool.or_eq_true] at h ⊢
  rcases h with h | h <;> simp [h]

@[simp] theorem isRest_sanitizeChar (c : Char) : isRest (sanitizeChar c) = true := by
  unfold sanitizeChar
  split
  · assumption
  · decide

theorem sanitizeChar_of_isRest {c : Char} (h : isRest c = true) : sanitizeChar c = c := by
  simp [sanitizeChar, h]

theorem isLegal_withStart {s : List Char} (h : s.all isRest = true) : IsLegal (withStart s) := by
  cases s with
  | nil => exact ⟨by decide, rfl⟩
  | cons c s =>
    simp only [List.all_cons, Bool.and_eq_true] at h
    by_cases hc : isStart c = true
    · rw [withStart, if_pos hc]
      exact ⟨hc, h.2⟩
    · rw [withStart, if_neg hc]
      exact ⟨by decide, by simp [h.1, h.2]⟩

theorem isLegal_ofChars (name : List Char) : IsLegal (ofChars name) :=
  isLegal_withStart (by simp)

theorem ofChars_of_isLegal {s : List Char} (h : IsLegal s) : ofChars s = s := by
  cases s with
  | nil => exact absurd h id
  | cons c s =>
    have hs : s.map sanitizeChar = s := by
      have : ∀ x ∈ s, sanitizeChar x = x := fun x hx =>
        sanitizeChar_of_isRest (List.all_eq_true.1 h.2 x hx)
      simpa using List.map_congr_left this
    simp [ofChars, withStart, hs, sanitizeChar_of_isRest (isRest_of_isStart h.1), h.1]

end Identifier

end WixAuthoring
