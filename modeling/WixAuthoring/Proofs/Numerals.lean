import Mathlib.Data.List.Infix
import WixAuthoring.Proofs.Spellings

namespace WixAuthoring

/-!
# Numerals of a text

Each scanner leaves an end of the text that it is given, and what it takes for a number are digits that
stand side by side in that text. So a spelling has no numeral that the text does not have.
-/

namespace Text

/-- The first piece is where a text begins, and the others lie within the text. -/
theorem exists_splitChars (separates : Char → Bool) (s : List Char) :
    ∃ first more, splitChars separates s = first :: more ∧ first <+: s ∧
      ∀ piece ∈ more, piece <:+: s := by
  induction s with
  | nil => exact ⟨[], [], rfl, List.prefix_rfl, by simp⟩
  | cons c s ih =>
      obtain ⟨first, more, hpieces, hfirst, hmore⟩ := ih
      rw [splitChars, hpieces]
      split
      · refine ⟨[], first :: more, rfl, List.nil_prefix, List.forall_mem_cons.2 ⟨?_, ?_⟩⟩
        · exact List.infix_cons hfirst.isInfix
        · exact fun piece hpiece ↦ List.infix_cons (hmore piece hpiece)
      · refine ⟨c :: first, more, rfl, List.cons_prefix_cons.2 ⟨rfl, hfirst⟩, ?_⟩
        exact fun piece hpiece ↦ List.infix_cons (hmore piece hpiece)

theorem infix_of_mem_splitChars {separates : Char → Bool} {s piece : List Char}
    (h : piece ∈ splitChars separates s) : piece <:+: s := by
  obtain ⟨first, more, hpieces, hfirst, hmore⟩ := exists_splitChars separates s
  rw [hpieces] at h
  rcases List.mem_cons.1 h with rfl | hpiece
  · exact hfirst.isInfix
  · exact hmore piece hpiece

theorem infix_trimBlanks (s : List Char) : trimBlanks s <:+: s := by
  have hfront : dropBlanks s <:+ s := List.dropWhile_suffix isBlank
  have hback : (trimBlanks s).reverse <:+ (dropBlanks s).reverse := by
    rw [trimBlanks, List.reverse_reverse]
    exact List.dropWhile_suffix isBlank
  exact (List.reverse_suffix.1 hback).isInfix.trans hfront.isInfix

theorem toLower_eq_of_isDigit {c : Char} (h : isDigit c.toLower = true) : c.toLower = c := by
  delta Char.toLower at h ⊢
  split at h
  · next hupper =>
      simp only [isDigit, Bool.and_eq_true, decide_eq_true_eq, Char.le_def, ge_iff_le,
        UInt32.le_iff_toNat_le] at h hupper
      have hlower : (c.val + ('a'.val - 'A'.val)).toNat = c.val.toNat + 32 := by
        have : c.val.toNat ≤ 90 := hupper.2
        rw [UInt32.toNat_add, Nat.mod_eq_of_lt]
        · rfl
        · change c.val.toNat + 32 < 2 ^ 32
          omega
      have : 65 ≤ c.val.toNat := hupper.1
      have : (c.val + ('a'.val - 'A'.val)).toNat ≤ 57 := h.2
      omega
  · rw [dif_neg ‹_›]

end Text

namespace VersionSpelling

open Text

variable {α : Type} {s t digits rest : List Char} {numbers : List (List Char)}
  {spelling : VersionSpelling}

/-- Holds of digits that stand side by side in a text, and of no digits. -/
def IsNumeralOf (s digits : List Char) : Prop := digits <:+: s ∧ ∀ c ∈ digits, isDigit c = true

theorem isNumeralOf_nil (s : List Char) : IsNumeralOf s [] := ⟨List.nil_infix, by simp⟩

theorem isNumeralOf_takeDigits (s : List Char) : IsNumeralOf s (takeDigits s) :=
  ⟨(List.takeWhile_prefix isDigit).isInfix, fun _ ↦ List.mem_takeWhile_imp⟩

theorem IsNumeralOf.of_infix (h : IsNumeralOf t digits) (ht : t <:+: s) : IsNumeralOf s digits :=
  ⟨h.1.trans ht, h.2⟩

theorem IsNumeralOf.of_suffix (h : IsNumeralOf t digits) (ht : t <:+ s) : IsNumeralOf s digits :=
  h.of_infix ht.isInfix

theorem IsNumeralOf.of_lower (h : IsNumeralOf (s.map Char.toLower) digits) : IsNumeralOf s digits := by
  obtain ⟨hwithin, hdigits⟩ := h
  obtain ⟨part, hpart, rfl⟩ := List.infix_map_iff.1 hwithin
  have hsame : part.map Char.toLower = part := by
    rw [List.map_congr_left fun c hc ↦ toLower_eq_of_isDigit (hdigits _ (List.mem_map_of_mem hc)),
      List.map_id']
  rw [hsame] at hdigits ⊢
  exact ⟨hpart, hdigits⟩

/-! ## What the scanners leave -/

theorem dropDigits_suffix (s : List Char) : dropDigits s <:+ s := List.dropWhile_suffix isDigit

theorem dropSeparator_suffix (s : List Char) : dropSeparator s <:+ s := by
  fun_cases dropSeparator s with
  | case1 => exact List.suffix_rfl
  | case2 c s => exact List.suffix_cons c s
  | case3 => exact List.suffix_rfl

theorem dropMark_suffix (s : List Char) : dropMark s <:+ s := by
  fun_cases dropMark s with
  | case1 s => exact List.suffix_cons 'v' s
  | case2 => exact List.suffix_rfl

theorem firstWord_suffix {words : List (String × α)} {a : α} (h : firstWord words s = some (a, rest)) :
    rest <:+ s := by
  obtain ⟨⟨word, b⟩, -, hword⟩ := List.exists_of_findSome?_eq_some h
  obtain ⟨t, hafter, hpair⟩ := Option.map_eq_some_iff.1 hword
  obtain ⟨-, rfl⟩ := Prod.mk.inj hpair
  exact ⟨word.toList, (eq_append_of_after? hafter).symm⟩

theorem scanEpoch_spec (s : List Char) :
    IsNumeralOf s (scanEpoch s).1 ∧ (scanEpoch s).2 <:+ s := by
  fun_cases scanEpoch s with
  | case1 rest hrest hnone => exact ⟨isNumeralOf_nil s, List.suffix_rfl⟩
  | case2 rest hrest hsome =>
      refine ⟨isNumeralOf_takeDigits s, (List.suffix_cons '!' rest).trans ?_⟩
      rw [← hrest]
      exact dropDigits_suffix s
  | case3 => exact ⟨isNumeralOf_nil s, List.suffix_rfl⟩

theorem infix_dotted (h : digits ∈ numbers) : digits <:+: dotted numbers := by
  have hmem : '.' :: digits ∈ numbers.map ('.' :: ·) := List.mem_map_of_mem h
  rw [dotted, List.flatMap_def]
  exact (List.suffix_cons '.' digits).isInfix.trans (List.infix_of_mem_flatten hmem)

theorem scanRelease_numerals (h : scanRelease s = some (numbers, rest)) :
    (∀ digits ∈ numbers, IsNumeralOf s digits) ∧ rest <:+ s := by
  obtain ⟨first, further, rfl, rfl, hruns⟩ := scanRelease_spec h
  refine ⟨fun digits hdigits ↦ ⟨?_, (hruns digits hdigits).2⟩, List.suffix_append _ rest⟩
  rcases List.mem_cons.1 hdigits with rfl | hdigits
  · exact ((List.prefix_append _ _).trans (List.prefix_append _ rest)).isInfix
  · have hfurther := (List.suffix_append first (dotted further)).isInfix
    exact ((infix_dotted hdigits).trans hfurther).trans (List.prefix_append _ rest).isInfix

theorem scanStage_spec (words : List (String × α)) (s : List Char) :
    (∀ digits ∈ (scanStage words s).1.map Prod.snd, IsNumeralOf s digits) ∧
      (scanStage words s).2 <:+ s := by
  fun_cases scanStage words s with
  | case1 a rest hword =>
      have hrest : dropSeparator rest <:+ s :=
        ((dropSeparator_suffix rest).trans (firstWord_suffix hword)).trans (dropSeparator_suffix s)
      refine ⟨fun digits hdigits ↦ ?_, (dropDigits_suffix _).trans hrest⟩
      obtain rfl := Option.some.inj hdigits
      exact (isNumeralOf_takeDigits _).of_suffix hrest
  | case2 =>
      refine ⟨fun digits hdigits ↦ ?_, List.suffix_rfl⟩
      cases hdigits

theorem scanPost_spec (s : List Char) :
    (∀ digits ∈ (scanPost s).1, IsNumeralOf s digits) ∧ (scanPost s).2 <:+ s := by
  fun_cases scanPost s with
  | case1 rest => exact scanStage_spec postWords ('-' :: rest)
  | case2 rest =>
      refine ⟨fun digits hdigits ↦ ?_, (dropDigits_suffix rest).trans (List.suffix_cons '-' rest)⟩
      obtain rfl := Option.some.inj hdigits
      exact (isNumeralOf_takeDigits rest).of_suffix (List.suffix_cons '-' rest)
  | case3 => exact scanStage_spec postWords s

theorem scanLabel_numerals {parts : List (List Char)} (h : scanLabel s = some parts) :
    ∀ digits ∈ parts.flatMap partNumerals, IsNumeralOf s digits := by
  have hparts : ∀ part ∈ parts, part <:+: s := by
    rw [scanLabel.eq_def] at h
    split at h
    · obtain rfl := Option.some.inj h
      simp
    · obtain ⟨-, h⟩ := Option.ite_none_right_eq_some.1 h
      obtain rfl := Option.some.inj h
      exact fun part hpart ↦ List.infix_cons (infix_of_mem_splitChars hpart)
    · cases h
  intro digits hdigits
  obtain ⟨part, hpart, hmem⟩ := List.mem_flatMap.1 hdigits
  rw [partNumerals] at hmem
  split at hmem
  · next hall =>
      obtain rfl := List.mem_singleton.1 hmem
      exact ⟨hparts digits hpart, List.all_eq_true.1 hall⟩
  · cases hmem

/-- A text that is scanned has all the numerals of its spelling. -/
theorem scan_numerals (h : scan s = some spelling) :
    ∀ digits ∈ spelling.numerals, IsNumeralOf s digits := by
  rw [scan] at h
  obtain ⟨hepoch, hafterEpoch⟩ := scanEpoch_spec (dropMark s)
  have hfront := hafterEpoch.trans (dropMark_suffix s)
  cases hscan : scanRelease (scanEpoch (dropMark s)).2 with
  | none =>
      rw [hscan] at h
      cases h
  | some found =>
      obtain ⟨release, afterRelease⟩ := found
      rw [hscan] at h
      obtain ⟨label, hlabel, rfl⟩ := Option.map_eq_some_iff.1 h
      obtain ⟨hrelease, hafterRelease⟩ := scanRelease_numerals hscan
      obtain ⟨hpre, hafterPre⟩ := scanStage_spec preWords afterRelease
      obtain ⟨hpost, hafterPost⟩ := scanPost_spec (scanStage preWords afterRelease).2
      obtain ⟨hdev, hafterDev⟩ :=
        scanStage_spec devWords (scanPost (scanStage preWords afterRelease).2).2
      -- each part begins in what the one before it has left
      have hbody := hafterRelease.trans hfront
      have hbehindPre := hafterPre.trans hbody
      have hbehindPost := hafterPost.trans hbehindPre
      simp only [numerals, List.forall_mem_append, List.forall_mem_singleton, ← Option.toList_map,
        Option.mem_toList]
      refine ⟨hepoch.of_suffix (dropMark_suffix s), fun digits h ↦ ?_, fun digits h ↦ ?_,
        fun digits h ↦ ?_, fun digits h ↦ ?_, fun digits h ↦ ?_⟩
      · exact (hrelease digits h).of_suffix hfront
      · exact (hpre digits h).of_suffix hbody
      · exact (hpost digits h).of_suffix hbehindPre
      · exact (hdev digits h).of_suffix hbehindPost
      · exact (scanLabel_numerals hlabel digits h).of_suffix (hafterDev.trans hbehindPost)

theorem ofChars?_numerals (h : ofChars? s = some spelling) :
    ∀ digits ∈ spelling.numerals, IsNumeralOf s digits := by
  intro digits hdigits
  have hlower : IsNumeralOf ((trimBlanks s).map Char.toLower) digits := scan_numerals h digits hdigits
  exact hlower.of_lower.of_infix (infix_trimBlanks s)

end VersionSpelling

end WixAuthoring
