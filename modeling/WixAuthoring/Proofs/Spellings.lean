import Mathlib.Data.List.TakeWhile
import WixAuthoring.Version.Token

namespace WixAuthoring

/-!
# Spellings of versions

A spelling is read number by number, and the first number that is too long stops the reading. A text of
digits and dots alone spells a version exactly when its numbers are written with ASCII digits.
-/

namespace VersionSpelling

open Text

/-! ## Numbers -/

section Numbers

variable {α β : Type} {a : α} {b : β} {numerals more : List (List Char)}

def isTooLong (digits : List Char) : Bool := longestNumeral < digits.length

/-- A value that is reached unless one of the numerals is too long. -/
def unlessTooLong (numerals : List (List Char)) (a : α) : Except VersionError α :=
  match numerals.find? isTooLong with
  | some digits => .error (.numeralTooLong digits.length)
  | none => .ok a

theorem unlessTooLong_of_short (h : ∀ digits ∈ numerals, digits.length ≤ longestNumeral) (a : α) :
    unlessTooLong numerals a = .ok a := by
  have hfind : numerals.find? isTooLong = none := by
    rw [List.find?_eq_none]
    intro digits hdigits
    rw [isTooLong, decide_eq_true_eq, Nat.not_lt]
    exact h digits hdigits
  rw [unlessTooLong, hfind]

theorem unlessTooLong_of_long (h : ¬∀ digits ∈ numerals, digits.length ≤ longestNumeral) (a : α) :
    ∃ n, unlessTooLong numerals a = .error (.numeralTooLong n) := by
  rw [unlessTooLong]
  cases hfind : numerals.find? isTooLong with
  | some first => exact ⟨first.length, rfl⟩
  | none =>
      refine absurd (fun digits hdigits ↦ ?_) h
      have hshort := List.find?_eq_none.1 hfind digits hdigits
      rwa [isTooLong, decide_eq_true_eq, Nat.not_lt] at hshort

theorem unlessTooLong_bind {f : α → Except VersionError β} (h : f a = unlessTooLong more b) :
    unlessTooLong numerals a >>= f = unlessTooLong (numerals ++ more) b := by
  rw [unlessTooLong, unlessTooLong, List.find?_append]
  cases numerals.find? isTooLong with
  | some digits => rfl
  | none => exact h

theorem map_unlessTooLong (f : α → β) (a : α) :
    f <$> unlessTooLong numerals a = unlessTooLong numerals (f a) := by
  rw [unlessTooLong, unlessTooLong]
  cases numerals.find? isTooLong <;> rfl

theorem mapM_unlessTooLong {f : α → Except VersionError β} {numerals : α → List (List Char)}
    {value : α → β} (h : ∀ a, f a = unlessTooLong (numerals a) (value a)) (items : List α) :
    items.mapM f = unlessTooLong (items.flatMap numerals) (items.map value) := by
  induction items with
  | nil => rfl
  | cons a items ih =>
      rw [List.mapM_cons, h, ih, List.flatMap_cons]
      apply unlessTooLong_bind
      rw [bind_pure_comp]
      exact map_unlessTooLong (value a :: ·) _

theorem option_mapM_unlessTooLong {f : α → Except VersionError β}
    {numerals : α → List (List Char)} {value : α → β}
    (h : ∀ a, f a = unlessTooLong (numerals a) (value a)) (item : Option α) :
    item.mapM f = unlessTooLong (item.toList.flatMap numerals) (item.map value) := by
  cases item with
  | none => rfl
  | some a =>
      change some <$> f a = _
      rw [h, map_unlessTooLong, Option.toList_some, List.flatMap_singleton, Option.map_some]

end Numbers

theorem readNumeral_eq (digits : List Char) :
    readNumeral digits = unlessTooLong [digits] (numeral digits) := by
  rw [readNumeral, unlessTooLong, List.find?_singleton, isTooLong]
  by_cases h : digits.length ≤ longestNumeral
  · rw [if_pos h, decide_eq_false (Nat.not_lt.2 h)]
    rfl
  · rw [if_neg h, decide_eq_true (Nat.not_le.1 h)]
    rfl

/-- The numerals of a label part: one or none. -/
def partNumerals (part : List Char) : List (List Char) := if part.all isDigit then [part] else []

def partValue (part : List Char) : LocalPart :=
  if part.all isDigit then .number (numeral part) else .word (String.ofList part)

theorem readLabelPart_eq (part : List Char) :
    readLabelPart part = unlessTooLong (partNumerals part) (partValue part) := by
  rw [readLabelPart, partNumerals, partValue, readNumeral_eq]
  split
  · exact map_unlessTooLong _ _
  · rfl

/-- The numerals of a spelling, in the order in which they are read. -/
def numerals (s : VersionSpelling) : List (List Char) :=
  [s.epoch] ++ (s.release ++ (s.pre.toList.map Prod.snd ++ (s.post.toList ++
    (s.dev.toList ++ s.label.flatMap partNumerals))))

def value (s : VersionSpelling) : Version :=
  ⟨numeral s.epoch, s.release.map numeral, s.pre.map fun (kind, digits) ↦ (kind, numeral digits),
    s.post.map numeral, s.dev.map numeral, s.label.map partValue⟩

/-- A spelling has a value unless one of its numerals is too long. -/
theorem read_eq (s : VersionSpelling) : s.read = unlessTooLong s.numerals s.value := by
  have hstage (stage : PreKind × List Char) :
      (fun (kind, digits) ↦ (kind, ·) <$> readNumeral digits) stage =
        unlessTooLong [stage.2] (stage.1, numeral stage.2) := by
    rw [← map_unlessTooLong, ← readNumeral_eq]
  rw [read, readNumeral_eq, mapM_unlessTooLong readNumeral_eq, option_mapM_unlessTooLong hstage,
    option_mapM_unlessTooLong readNumeral_eq, option_mapM_unlessTooLong readNumeral_eq,
    mapM_unlessTooLong readLabelPart_eq]
  simp only [List.flatMap_singleton', ← List.map_eq_flatMap, bind_pure_comp, map_unlessTooLong]
  -- one step for each part in front of the label
  iterate 5 apply unlessTooLong_bind
  rfl

/-! ## Releases -/

section Releases

variable {counts : Char → Bool} {number s rest : List Char} {numbers : List (List Char)} {fuel : Nat}

/-- Numbers with a dot in front of each. -/
def dotted (numbers : List (List Char)) : List Char := numbers.flatMap fun number ↦ '.' :: number

@[simp] theorem dotted_nil : dotted [] = [] := rfl

@[simp] theorem dotted_cons (number : List Char) (numbers : List (List Char)) :
    dotted (number :: numbers) = '.' :: (number ++ dotted numbers) := by
  rw [dotted, List.flatMap_cons, List.cons_append, dotted]

theorem length_le_length_dotted (numbers : List (List Char)) :
    numbers.length ≤ (dotted numbers).length := by
  induction numbers with
  | nil => simp
  | cons number numbers ih =>
      rw [dotted_cons, List.length_cons, List.length_cons, List.length_append]
      omega

/-- There are no more numbers than characters in a text that holds them. -/
theorem length_le_length_release (number : List Char) (numbers : List (List Char)) (rest : List Char) :
    numbers.length ≤ (number ++ (dotted numbers ++ rest)).length := by
  have := length_le_length_dotted numbers
  simp only [List.length_append]
  omega

/-- Digits of some kind, one at least. -/
def IsRun (counts : Char → Bool) (number : List Char) : Prop :=
  number ≠ [] ∧ ∀ c ∈ number, counts c = true

theorem IsRun.script (h : IsRun isDigit number) : IsRun isScriptDigit number :=
  ⟨h.1, fun c hc ↦ isScriptDigit_of_isDigit (h.2 c hc)⟩

theorem isRun_takeWhile (h : s.takeWhile counts ≠ []) : IsRun counts (s.takeWhile counts) :=
  ⟨h, fun _ hc ↦ List.mem_takeWhile_imp hc⟩

/-- Holds of what may follow a number: nothing, or what begins neither with a digit nor with a dot. -/
def EndsNumber (counts : Char → Bool) (rest : List Char) : Prop :=
  ∀ c ∈ rest.head?, counts c = false ∧ c ≠ '.'

theorem endsNumber_nil (counts : Char → Bool) : EndsNumber counts [] := by simp [EndsNumber]

theorem head?_dotted_append (hdot : counts '.' = false) (hrest : EndsNumber counts rest)
    (numbers : List (List Char)) : ∀ c ∈ (dotted numbers ++ rest).head?, counts c = false := by
  cases numbers with
  | nil => exact fun c hc ↦ (hrest c hc).1
  | cons _ _ =>
      intro c hc
      obtain rfl : '.' = c := by simpa using hc
      exact hdot

theorem takeWhile_append_dotted (hdot : counts '.' = false) (hnumber : IsRun counts number)
    (hrest : EndsNumber counts rest) (numbers : List (List Char)) :
    (number ++ (dotted numbers ++ rest)).takeWhile counts = number := by
  have hhead := head?_dotted_append hdot hrest numbers
  rw [List.takeWhile_append_of_pos hnumber.2]
  cases hfurther : dotted numbers ++ rest with
  | nil => rw [List.takeWhile_nil, List.append_nil]
  | cons c t =>
      rw [hfurther] at hhead
      rw [List.takeWhile_cons_of_neg (Bool.eq_false_iff.1 (hhead c rfl)), List.append_nil]

theorem dropWhile_append_dotted (hdot : counts '.' = false) (hnumber : IsRun counts number)
    (hrest : EndsNumber counts rest) (numbers : List (List Char)) :
    (number ++ (dotted numbers ++ rest)).dropWhile counts = dotted numbers ++ rest := by
  have hhead := head?_dotted_append hdot hrest numbers
  rw [List.dropWhile_append_of_pos hnumber.2]
  cases hfurther : dotted numbers ++ rest with
  | nil => rfl
  | cons c t =>
      rw [hfurther] at hhead
      exact List.dropWhile_cons_of_neg (Bool.eq_false_iff.1 (hhead c rfl))

theorem scanNumbers_spec (fuel : Nat) (s : List Char) :
    s = dotted (scanNumbers fuel s).1 ++ (scanNumbers fuel s).2 ∧
      ∀ number ∈ (scanNumbers fuel s).1, IsRun isDigit number := by
  fun_induction scanNumbers fuel s with
  | case1 fuel s h => simp
  | case2 fuel s h further ih =>
      refine ⟨?_, List.forall_mem_cons.2 ⟨isRun_takeWhile h, ih.2⟩⟩
      rw [dotted_cons, List.cons_append, List.append_assoc, ← ih.1, takeDigits, dropDigits,
        List.takeWhile_append_dropWhile]
  | case3 => simp

theorem scanNumbers_of_endsNumber (hrest : EndsNumber isDigit rest) (fuel : Nat) :
    scanNumbers fuel rest = ([], rest) := by
  rw [scanNumbers.eq_def]
  split
  · exact absurd rfl (hrest '.' rfl).2
  · rfl

theorem scanNumbers_dotted (hnumbers : ∀ number ∈ numbers, IsRun isDigit number)
    (hrest : EndsNumber isDigit rest) (hfuel : numbers.length ≤ fuel) :
    scanNumbers fuel (dotted numbers ++ rest) = (numbers, rest) := by
  induction numbers generalizing fuel with
  | nil => exact scanNumbers_of_endsNumber hrest fuel
  | cons number numbers ih =>
      rw [List.forall_mem_cons] at hnumbers
      cases fuel with
      | zero => simp at hfuel
      | succ fuel =>
          have htake := takeWhile_append_dotted (by decide) hnumbers.1 hrest numbers
          have hdrop := dropWhile_append_dotted (by decide) hnumbers.1 hrest numbers
          rw [dotted_cons, List.cons_append, List.append_assoc, scanNumbers, takeDigits, dropDigits,
            htake, hdrop, if_neg hnumbers.1.1, ih hnumbers.2 (Nat.le_of_succ_le_succ hfuel)]

theorem scanRelease_spec (h : scanRelease s = some (numbers, rest)) :
    ∃ first further, numbers = first :: further ∧ s = first ++ dotted further ++ rest ∧
      ∀ number ∈ numbers, IsRun isDigit number := by
  rw [scanRelease] at h
  split at h
  · cases h
  · next hfirst =>
      cases h
      obtain ⟨hs, hfurther⟩ := scanNumbers_spec s.length (dropDigits s)
      refine ⟨takeDigits s, _, rfl, ?_, List.forall_mem_cons.2 ⟨isRun_takeWhile hfirst, hfurther⟩⟩
      rw [List.append_assoc, ← hs, takeDigits, dropDigits, List.takeWhile_append_dropWhile]

theorem scanRelease_dotted (hnumber : IsRun isDigit number)
    (hnumbers : ∀ number ∈ numbers, IsRun isDigit number) (hrest : EndsNumber isDigit rest) :
    scanRelease (number ++ (dotted numbers ++ rest)) = some (number :: numbers, rest) := by
  have htake := takeWhile_append_dotted (by decide) hnumber hrest numbers
  have hdrop := dropWhile_append_dotted (by decide) hnumber hrest numbers
  rw [scanRelease, takeDigits, dropDigits, htake, hdrop, if_neg hnumber.1,
    scanNumbers_dotted hnumbers hrest (length_le_length_release number numbers rest)]

end Releases

/-! ## Texts of digits and dots -/

section DigitsAndDots

variable {α : Type} {words : List (String × α)} {c : Char} {number s rest : List Char}
  {numbers release : List (List Char)}

theorem scriptZeros_range {first : Nat} (h : first ∈ scriptZeros) :
    first = 48 ∨ (1632 ≤ first ∧ first ≤ 4240) ∨ (6112 ≤ first ∧ first ≤ 7248) ∨ 42528 ≤ first := by
  revert first
  decide

/-- A digit of any script, or a dot. -/
def IsDigitOrDot (c : Char) : Prop := isScriptDigit c = true ∨ c = '.'

theorem IsDigitOrDot.range (h : IsDigitOrDot c) :
    (46 ≤ c.toNat ∧ c.toNat ≤ 57) ∨ (1632 ≤ c.toNat ∧ c.toNat ≤ 4249) ∨
      (6112 ≤ c.toNat ∧ c.toNat ≤ 7257) ∨ 42528 ≤ c.toNat := by
  rcases h with h | rfl
  · obtain ⟨first, hfirst, h⟩ := List.any_eq_true.1 h
    rw [Bool.and_eq_true, decide_eq_true_eq, decide_eq_true_eq] at h
    have := scriptZeros_range hfirst
    omega
  · decide

theorem IsDigitOrDot.not_blank (h : IsDigitOrDot c) : isBlank c = false := by
  have := h.range
  simp only [isBlank, Bool.or_eq_false_iff, Bool.and_eq_false_iff, decide_eq_false_iff_not,
    beq_eq_false_iff_ne]
  omega

theorem IsDigitOrDot.toLower (h : IsDigitOrDot c) : c.toLower = c := by
  have hrange := h.range
  have hupper : ¬(c.val ≥ 65 ∧ c.val ≤ 90) := by
    simp only [ge_iff_le, UInt32.le_iff_toNat_le]
    change ¬(65 ≤ c.toNat ∧ c.toNat ≤ 90)
    omega
  exact dif_neg hupper

theorem IsDigitOrDot.not_lower (h : IsDigitOrDot c) : c.isLower = false := by
  have hrange := h.range
  rw [← Bool.not_eq_true]
  delta Char.isLower
  simp only [Bool.and_eq_true, decide_eq_true_eq, ge_iff_le, UInt32.le_iff_toNat_le]
  change ¬(97 ≤ c.toNat ∧ c.toNat ≤ 122)
  omega

def DigitsAndDots (s : List Char) : Prop := ∀ c ∈ s, IsDigitOrDot c

theorem digitsAndDots_append_dotted (h : ∀ n ∈ number :: numbers, IsRun isScriptDigit n) :
    DigitsAndDots (number ++ dotted numbers) := by
  intro c hc
  rw [List.forall_mem_cons] at h
  rcases List.mem_append.1 hc with hc | hc
  · exact .inl (h.1.2 c hc)
  · obtain ⟨n, hn, hc⟩ := List.mem_flatMap.1 hc
    rcases List.mem_cons.1 hc with rfl | hc
    · exact .inr rfl
    · exact .inl ((h.2 n hn).2 c hc)

theorem splitChars_dotted (h : ∀ n ∈ number :: numbers, IsRun isScriptDigit n) :
    splitChars (· == '.') (number ++ dotted numbers) = number :: numbers := by
  have hnone {n : List Char} (hn : IsRun isScriptDigit n) : ∀ c ∈ n, (c == '.') = false := by
    intro c hc
    rw [beq_eq_false_iff_ne]
    rintro rfl
    exact absurd (hn.2 _ hc) (by decide)
  induction numbers generalizing number with
  | nil =>
      rw [dotted_nil, List.append_nil]
      exact splitChars_of_none (hnone (h number List.mem_cons_self))
  | cons next numbers ih =>
      rw [List.forall_mem_cons] at h
      rw [dotted_cons, splitChars_append_cons (hnone h.1) rfl, ih h.2]

theorem DigitsAndDots.after?_eq_none (hs : DigitsAndDots s) {word : String}
    (hword : word.toList.head?.any Char.isLower = true) : after? word.toList s = none := by
  cases hchars : word.toList with
  | nil =>
      rw [hchars] at hword
      cases hword
  | cons w word =>
      rw [hchars] at hword
      cases s with
      | nil => rfl
      | cons c s =>
          have hne : w ≠ c := by
            rintro rfl
            exact Bool.false_ne_true ((hs w List.mem_cons_self).not_lower.symm.trans hword)
          rw [after?, if_neg hne]

theorem DigitsAndDots.scanStage_eq (hs : DigitsAndDots s)
    (hwords : ∀ word ∈ words, word.1.toList.head?.any Char.isLower = true) :
    scanStage words s = (none, s) := by
  have hdrop : DigitsAndDots (dropSeparator s) := by
    cases s with
    | nil => exact hs
    | cons c s =>
        rw [dropSeparator]
        split
        · exact (List.forall_mem_cons.1 hs).2
        · exact hs
  have hfirst : firstWord words (dropSeparator s) = none := by
    rw [firstWord, List.findSome?_eq_none_iff]
    intro (word, a) hword
    dsimp only
    rw [hdrop.after?_eq_none (hwords _ hword), Option.map_none]
  rw [scanStage, hfirst]

theorem DigitsAndDots.scanPost_eq (hs : DigitsAndDots s) : scanPost s = (none, s) := by
  rw [scanPost.eq_def]
  split
  · exact absurd (hs '-' List.mem_cons_self).range (by decide)
  · rw [hs.scanStage_eq (by decide), Option.map_none]

theorem DigitsAndDots.scanLabel_eq_none (hs : DigitsAndDots s) (hne : s ≠ []) : scanLabel s = none := by
  rw [scanLabel.eq_def]
  split
  · exact absurd rfl hne
  · exact absurd (hs '+' List.mem_cons_self).range (by decide)
  · rfl

theorem DigitsAndDots.dropMark_eq (hs : DigitsAndDots s) : dropMark s = s := by
  rw [dropMark.eq_def]
  split
  · exact absurd (hs 'v' List.mem_cons_self).range (by decide)
  · rfl

theorem DigitsAndDots.scanEpoch_eq (hs : DigitsAndDots s) : scanEpoch s = ([], s) := by
  rw [scanEpoch]
  split
  · next rest hrest =>
      have hmem : '!' ∈ dropDigits s := hrest ▸ List.mem_cons_self
      exact absurd (hs '!' ((List.dropWhile_sublist _).subset hmem)).range (by decide)
  · rfl

theorem scan_of_no_release (hs : DigitsAndDots s) (h : scanRelease s = none) :
    scan s = none := by
  rw [scan, hs.dropMark_eq, hs.scanEpoch_eq, h]

theorem scan_of_release (hs : DigitsAndDots s) (h : scanRelease s = some (release, rest)) :
    scan s = if rest = [] then some ⟨[], release, none, none, none, []⟩ else none := by
  obtain ⟨first, further, -, hrest, -⟩ := scanRelease_spec h
  have hrest : DigitsAndDots rest :=
    fun c hc ↦ hs c (hrest ▸ List.mem_append_right _ hc)
  rw [scan, hs.dropMark_eq, hs.scanEpoch_eq, h]
  dsimp only
  rw [hrest.scanStage_eq (by decide), hrest.scanPost_eq, hrest.scanStage_eq (by decide)]
  split
  · next hnil =>
      rw [hnil]
      rfl
  · next hne =>
      rw [hrest.scanLabel_eq_none hne]
      rfl

theorem DigitsAndDots.ofChars?_eq (hs : DigitsAndDots s) : ofChars? s = scan s := by
  rw [ofChars?, trimBlanks_eq_self fun c hc ↦ (hs c hc).not_blank,
    List.map_congr_left fun c hc ↦ (hs c hc).toLower, List.map_id']

theorem ofChars?_of_digits (h : ∀ n ∈ number :: numbers, IsRun isScriptDigit n)
    (hdigits : ∀ n ∈ number :: numbers, ∀ c ∈ n, isDigit c = true) :
    ofChars? (number ++ dotted numbers) = some ⟨[], number :: numbers, none, none, none, []⟩ := by
  have hs := digitsAndDots_append_dotted h
  have hruns : ∀ n ∈ number :: numbers, IsRun isDigit n := fun n hn ↦ ⟨(h n hn).1, hdigits n hn⟩
  rw [List.forall_mem_cons] at hruns
  have hscan := scanRelease_dotted hruns.1 hruns.2 (endsNumber_nil isDigit)
  rw [List.append_nil] at hscan
  rw [hs.ofChars?_eq, scan_of_release hs hscan, if_pos rfl]

theorem ofChars?_of_other_digits (h : ∀ n ∈ number :: numbers, IsRun isScriptDigit n)
    (hother : ¬∀ n ∈ number :: numbers, ∀ c ∈ n, isDigit c = true) :
    ofChars? (number ++ dotted numbers) = none := by
  have hs := digitsAndDots_append_dotted h
  rw [hs.ofChars?_eq]
  cases hrelease : scanRelease (number ++ dotted numbers) with
  | none => exact scan_of_no_release hs hrelease
  | some found =>
      obtain ⟨release, rest⟩ := found
      rw [scan_of_release hs hrelease, if_neg]
      -- if all of it were scanned, the numbers between the dots would be those that were scanned
      rintro rfl
      obtain ⟨first, further, rfl, hsame, hruns⟩ := scanRelease_spec hrelease
      rw [List.append_nil] at hsame
      have hsplit := splitChars_dotted fun n hn ↦ (hruns n hn).script
      rw [← hsame, splitChars_dotted h] at hsplit
      rw [hsplit] at hother
      exact hother fun n hn ↦ (hruns n hn).2

end DigitsAndDots

end VersionSpelling

end WixAuthoring
