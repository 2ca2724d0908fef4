import Mathlib.Algebra.Group.Nat.Defs
import WixAuthoring.Json.Reading
import WixAuthoring.Json.Writing
import WixAuthoring.Proofs.Decimals

namespace WixAuthoring

/-!
# Texts and numbers in JSON

A reader that meets a character, written as it is or escaped, goes on with that character. So a text is
read back up to its closing quote, and an integer up to whatever cannot be part of one.
-/

namespace Text

theorem hexNumeral?_hexadecimal {width n : Nat} (h : n < 16 ^ width) :
    hexNumeral? (hexadecimal width n) = some n := by
  induction width generalizing n with
  | zero =>
      obtain rfl : n = 0 := by simpa using h
      rfl
  | succ width ih =>
      have hfront := ih (n := n / 16) (by rw [Nat.pow_succ] at h; omega)
      have hdigit := hexValue?_hexDigit (n := n % 16) (by omega)
      rw [hexNumeral?] at hfront ⊢
      rw [hexadecimal, List.foldlM_append, hfront]
      simp only [Option.bind_eq_bind, Option.bind_some, List.foldlM_cons, hdigit, Option.map_some,
        List.foldlM_nil]
      exact congrArg some (Nat.div_add_mod n 16)

end Text

namespace Json

open Text

variable {c : Char} {s rest : List Char}

/-! ## Texts -/

theorem readUnits_hexadecimal (hc : c.toNat < 32) (rest : List Char) :
    readUnits (hexadecimal 4 c.toNat ++ rest) = some (.char c rest) := by
  obtain ⟨x₁, x₂, x₃, x₄, hdigits⟩ : ∃ x₁ x₂ x₃ x₄, hexadecimal 4 c.toNat = [x₁, x₂, x₃, x₄] :=
    ⟨_, _, _, _, rfl⟩
  have hshort : c.toNat < 16 ^ 4 := by omega
  have hunit := hexNumeral?_hexadecimal hshort
  have hhigh : isHighSurrogate c.toNat = false := by
    simp only [isHighSurrogate, Bool.and_eq_false_iff, decide_eq_false_iff_not]
    omega
  have hlow : isLowSurrogate c.toNat = false := by
    simp only [isLowSurrogate, Bool.and_eq_false_iff, decide_eq_false_iff_not]
    omega
  rw [hdigits] at hunit ⊢
  rw [readUnits]
  simp only [List.cons_append, List.nil_append, escapedUnit?, hunit, Option.map_some, hhigh, hlow,
    Bool.false_eq_true, if_false, Char.ofNat_toNat]

theorem readStep_backslash {e : Char} (h : shortEscape? e = some c) (rest : List Char) :
    readStep (backslash :: e :: rest) = some (.char c rest) := by
  have hunits : e ≠ 'u' := by
    rintro rfl
    cases h
  rw [readStep, if_neg (by decide), if_pos rfl, h, Option.map_some]
  exact hunits

/-- What is written for a character is read as that character. -/
theorem readStep_escapeChar (c : Char) (rest : List Char) :
    readStep (escapeChar c ++ rest) = some (.char c rest) := by
  fun_cases escapeChar c with
  | case1 hself =>
      rw [Bool.or_eq_true, decide_eq_true_eq, decide_eq_true_eq] at hself
      apply readStep_backslash
      rcases hself with rfl | rfl <;> decide
  | case2 _ hchar | case3 _ _ hchar | case4 _ _ _ hchar =>
      apply readStep_backslash
      rw [hchar]
      decide
  | case5 _ _ _ _ hcode | case6 _ _ _ _ _ hcode =>
      apply readStep_backslash
      rw [← Char.ofNat_toNat c, hcode]
      decide
  | case7 _ _ _ _ _ _ hcode =>
      rw [List.cons_append, List.cons_append, readStep.eq_def]
      dsimp only
      rw [if_neg (by decide), if_pos rfl]
      exact readUnits_hexadecimal hcode rest
  | case8 hself _ _ _ _ _ hcode =>
      rw [Bool.or_eq_true, decide_eq_true_eq, decide_eq_true_eq, not_or] at hself
      rw [List.singleton_append, readStep.eq_def]
      dsimp only
      rw [if_neg hself.1, if_neg hself.2, if_neg hcode]

theorem readStep_doubleQuote (rest : List Char) :
    readStep (doubleQuote :: rest) = some (.done rest) := by
  rw [readStep.eq_def]
  exact if_pos rfl

theorem readText_escape {fuel : Nat} (hfuel : s.length < fuel) (rest : List Char) :
    readText fuel (s.flatMap escapeChar ++ doubleQuote :: rest) = some (s, rest) := by
  induction s generalizing fuel with
  | nil =>
      obtain ⟨fuel, rfl⟩ := Nat.exists_eq_succ_of_ne_zero (Nat.ne_zero_of_lt hfuel)
      rw [List.flatMap_nil, List.nil_append, readText, readStep_doubleQuote]
  | cons c s ih =>
      obtain ⟨fuel, rfl⟩ := Nat.exists_eq_succ_of_ne_zero (Nat.ne_zero_of_lt hfuel)
      rw [List.flatMap_cons, List.append_assoc, readText, readStep_escapeChar]
      dsimp only
      rw [ih (Nat.lt_of_succ_lt_succ hfuel), Option.map_some]

theorem one_le_length_escapeChar (c : Char) : 1 ≤ (escapeChar c).length := by
  fun_cases escapeChar c <;> simp

theorem length_le_length_escape (s : List Char) : s.length ≤ (s.flatMap escapeChar).length := by
  induction s with
  | nil => exact Nat.le_refl 0
  | cons c s ih =>
      have := one_le_length_escapeChar c
      rw [List.flatMap_cons, List.length_append, List.length_cons]
      omega

/-- A reader that is given as much fuel as there is text comes to the end of what was written. -/
theorem readText_writeText (s rest : List Char) :
    writeText s ++ rest = doubleQuote :: (s.flatMap escapeChar ++ doubleQuote :: rest) ∧
      readText ((s.flatMap escapeChar ++ doubleQuote :: rest).length + 1)
        (s.flatMap escapeChar ++ doubleQuote :: rest) = some (s, rest) := by
  refine ⟨by simp [writeText], readText_escape ?_ rest⟩
  have := length_le_length_escape s
  rw [List.length_append]
  omega

/-! ## Integers -/

/-- Holds of what may stand behind a value: a comma, the end of a line, or nothing at all. -/
def EndsValue (rest : List Char) : Prop := ∀ c ∈ rest.head?, c = ',' ∨ c = '\n'

theorem endsValue_nil : EndsValue [] := by
  intro c hc
  cases hc

theorem endsValue_comma (s : List Char) : EndsValue (',' :: s) := by
  intro c hc
  exact .inl (Option.some.inj hc).symm

theorem endsValue_newLine (level : Nat) (s : List Char) : EndsValue (newLine level ++ s) := by
  intro c hc
  exact .inr (Option.some.inj hc).symm

theorem EndsValue.not_isFractional (h : EndsValue rest) : isFractional rest = false := by
  cases rest with
  | nil => rfl
  | cons c rest => rcases h c rfl with rfl | rfl <;> rfl

theorem takeWhile_repr_append (h : EndsValue rest) (n : Nat) :
    (n.repr.toList ++ rest).takeWhile isDigit = n.repr.toList ∧
      (n.repr.toList ++ rest).dropWhile isDigit = rest := by
  have hdigits : ∀ c ∈ n.repr.toList, isDigit c = true := fun c ↦ isDigit_of_mem_repr
  have hrest : rest.takeWhile isDigit = [] ∧ rest.dropWhile isDigit = rest := by
    cases rest with
    | nil => exact ⟨rfl, rfl⟩
    | cons c rest => rcases h c rfl with rfl | rfl <;> exact ⟨rfl, rfl⟩
  rw [List.takeWhile_append_of_pos hdigits, List.dropWhile_append_of_pos hdigits, hrest.1, hrest.2]
  exact ⟨List.append_nil _, rfl⟩

theorem readNatural_repr (h : EndsValue rest) (n : Nat) :
    readNatural (n.repr.toList ++ rest) = some (n, rest) := by
  rcases Nat.eq_zero_or_pos n with rfl | hn
  · change (if isFractional rest = true then none else some (0, rest)) = some (0, rest)
    rw [h.not_isFractional]
    rfl
  · obtain ⟨htake, hdrop⟩ := takeWhile_repr_append h n
    have hfirst := head?_repr_ne_zero hn
    rw [readNatural.eq_def]
    split
    · next heq =>
        -- a numeral that begins with a zero is that of zero
        rcases hdigits : n.repr.toList with _ | ⟨c, more⟩
        · exact absurd hdigits (toList_repr_ne_nil n)
        · rw [hdigits] at heq hfirst
          exact absurd (congrArg some (List.cons.inj heq).1) hfirst
    · dsimp only
      rw [htake, hdrop, h.not_isFractional, numeral_repr]
      simp

theorem readInteger_writeInteger (h : EndsValue rest) (n : Int) :
    readInteger (writeInteger n ++ rest) = some (n, rest) := by
  rw [writeInteger, Int.toString_eq_repr, Int.repr_eq_if]
  split
  · next hn =>
      rw [readInteger.eq_def]
      split
      · next heq =>
          rcases hdigits : n.toNat.repr.toList with _ | ⟨c, more⟩
          · exact absurd hdigits (toList_repr_ne_nil _)
          · rw [hdigits] at heq
            obtain rfl : c = '-' := (List.cons.inj heq).1
            have hdigit := isDigit_of_mem_repr (hdigits ▸ List.mem_cons_self)
            exact absurd hdigit (by decide)
      · rw [readNatural_repr h, Option.map_some]
        dsimp only
        rw [Int.toNat_of_nonneg hn]
  · next hn =>
      have hminus : ("-" ++ (-n).toNat.repr).toList ++ rest =
          '-' :: ((-n).toNat.repr.toList ++ rest) := by
        rw [String.toList_append]
        rfl
      rw [hminus, readInteger, readNatural_repr h, Option.map_some]
      dsimp only
      rw [Int.toNat_of_nonneg (by omega), Int.neg_neg]

end Json

end WixAuthoring
