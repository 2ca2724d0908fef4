import Mathlib.Data.List.TakeWhile
import WixAuthoring.Manifest

namespace WixAuthoring

/-!
# Quoted values

A line assigns a value for every closing quote that is reached without white space. The longest of
these values is the version, so a quote behind the value counts unless white space comes first.
-/

namespace Manifest

open Text

/-- A line gives the version a value in quotes. What follows the closing quote is the rest. -/
structure Assigns (line value rest : List Char) : Prop where
  spelled : ∃ indent space gap : List Char,
    (∀ c ∈ indent ++ space ++ gap, isBlank c = true) ∧
      line = indent ++ ("version".toList ++ (space ++ '=' :: (gap ++ '\x22' :: (value ++ '\x22' :: rest))))
  value_ne_nil : value ≠ []
  value_solid : ∀ c ∈ value, isBlank c = false

/-- What follows a text directly, up to its first white space. -/
def solid (s : List Char) : List Char := s.takeWhile fun c ↦ !isBlank c

theorem solid_append {s : List Char} (h : ∀ c ∈ s, isBlank c = false) (t : List Char) :
    solid (s ++ t) = s ++ solid t := by
  apply List.takeWhile_append_of_pos
  intro c hc
  rw [h c hc, Bool.not_false]

theorem isBlank_of_mem_solid {c : Char} {s : List Char} (h : c ∈ solid s) : isBlank c = false := by
  have hall := List.mem_takeWhile_imp h
  simpa using hall

theorem dropBlanks_append {blanks : List Char} (h : ∀ c ∈ blanks, isBlank c = true) {c : Char}
    (hc : isBlank c = false) (s : List Char) : dropBlanks (blanks ++ c :: s) = c :: s := by
  rw [dropBlanks, List.dropWhile_append_of_pos h]
  exact dropBlanks_cons_of_not_blank hc s

theorem exists_blanks (s : List Char) :
    ∃ blanks, (∀ c ∈ blanks, isBlank c = true) ∧ s = blanks ++ dropBlanks s :=
  ⟨s.takeWhile isBlank, fun _ ↦ List.mem_takeWhile_imp, (List.takeWhile_append_dropWhile).symm⟩

theorem after?_self (c : Char) (s : List Char) : after? [c] (c :: s) = some s := after?_append [c] s

theorem beforeLastQuote_eq_none_iff {s : List Char} : beforeLastQuote s = none ↔ '\x22' ∉ s := by
  fun_induction beforeLastQuote s with
  | case1 => simp
  | case2 => simp_all
  | case3 => simp_all
  | case4 => simp_all [eq_comm]

/-- The last quote of a text that has one is the last quote of what follows any other. -/
theorem beforeLastQuote_append_quote (s t : List Char) :
    beforeLastQuote (s ++ '\x22' :: t) =
      some (s ++ ((beforeLastQuote t).map ('\x22' :: ·)).getD []) := by
  induction s with
  | nil =>
      rw [List.nil_append, beforeLastQuote]
      cases beforeLastQuote t <;> rfl
  | cons c s ih => rw [List.cons_append, beforeLastQuote, ih, List.cons_append]

theorem eq_append_of_beforeLastQuote {s before : List Char} (h : beforeLastQuote s = some before) :
    ∃ rest, s = before ++ '\x22' :: rest := by
  induction s generalizing before with
  | nil => cases h
  | cons c s ih =>
      rw [beforeLastQuote] at h
      cases hs : beforeLastQuote s with
      | some t =>
          rw [hs] at h
          obtain ⟨rest, rfl⟩ := ih hs
          obtain rfl := Option.some.inj h
          exact ⟨rest, rfl⟩
      | none =>
          rw [hs] at h
          obtain ⟨rfl, h⟩ := Option.ite_none_right_eq_some.1 h
          obtain rfl := Option.some.inj h
          exact ⟨s, rfl⟩

/-- What a closing quote and the text behind it add to a value: nothing, unless another quote can be
reached. -/
def overrun (rest : List Char) : List Char :=
  ((beforeLastQuote (solid rest)).map ('\x22' :: ·)).getD []

theorem overrun_eq_nil_iff {rest : List Char} : overrun rest = [] ↔ '\x22' ∉ solid rest := by
  rw [← beforeLastQuote_eq_none_iff, overrun]
  cases beforeLastQuote (solid rest) <;> simp

theorem quotedValue_append_quote {value : List Char} (hne : value ≠ [])
    (hsolid : ∀ c ∈ value, isBlank c = false) (rest : List Char) :
    quotedValue (value ++ '\x22' :: rest) = some (value ++ overrun rest) := by
  -- the closing quote is no white space either, so the reach goes on behind it
  have hquote : ∀ c ∈ value ++ ['\x22'], isBlank c = false := by
    simp only [List.forall_mem_append, List.forall_mem_singleton]
    exact ⟨hsolid, rfl⟩
  have hreach : solid (value ++ '\x22' :: rest) = value ++ '\x22' :: solid rest := by
    simpa using solid_append hquote rest
  rw [quotedValue, ← solid, hreach, beforeLastQuote_append_quote]
  simp [overrun, hne]

theorem exists_of_quotedValue {s value : List Char} (h : quotedValue s = some value) :
    value ≠ [] ∧ (∀ c ∈ value, isBlank c = false) ∧ ∃ rest, s = value ++ '\x22' :: rest := by
  obtain ⟨hlast, hne⟩ := Option.filter_eq_some_iff.1 h
  obtain ⟨rest, hrest⟩ := eq_append_of_beforeLastQuote hlast
  have hs : s = solid s ++ s.dropWhile fun c ↦ !isBlank c :=
    List.takeWhile_append_dropWhile.symm
  refine ⟨of_decide_eq_true hne, fun c hc ↦ ?_, rest ++ s.dropWhile fun c ↦ !isBlank c, ?_⟩
  · apply isBlank_of_mem_solid (s := s)
    rw [solid, hrest]
    exact List.mem_append_left _ hc
  · rw [solid, hrest, List.append_assoc] at hs
    exact hs

theorem Assigns.versionOfLine_eq {line value rest : List Char} (h : Assigns line value rest) :
    versionOfLine line = some (value ++ overrun rest) := by
  obtain ⟨⟨indent, space, gap, hblank, rfl⟩, hne, hsolid⟩ := h
  simp only [List.forall_mem_append] at hblank
  obtain ⟨⟨hindent, hspace⟩, hgap⟩ := hblank
  have hindented : dropBlanks (indent ++ ("version".toList ++
      (space ++ '=' :: (gap ++ '\x22' :: (value ++ '\x22' :: rest))))) =
      "version".toList ++ (space ++ '=' :: (gap ++ '\x22' :: (value ++ '\x22' :: rest))) :=
    dropBlanks_append hindent (c := 'v') rfl _
  rw [versionOfLine, hindented, after?_append]
  dsimp only [Option.bind_eq_bind, Option.bind_some]
  rw [dropBlanks_append hspace rfl, after?_self]
  dsimp only [Option.bind_some]
  rw [dropBlanks_append hgap rfl, after?_self]
  exact quotedValue_append_quote hne hsolid rest

theorem exists_assigns {line value : List Char} (h : versionOfLine line = some value) :
    ∃ rest, Assigns line value rest := by
  simp only [versionOfLine, Option.bind_eq_bind, Option.bind_eq_some_iff] at h
  obtain ⟨afterWord, hword, afterSign, hsign, afterQuote, hquote, hvalue⟩ := h
  obtain ⟨hne, hsolid, rest, rfl⟩ := exists_of_quotedValue hvalue
  obtain ⟨indent, hindent, hline⟩ := exists_blanks line
  obtain ⟨space, hspace, hafterWord⟩ := exists_blanks afterWord
  obtain ⟨gap, hgap, hafterSign⟩ := exists_blanks afterSign
  refine ⟨rest, ⟨indent, space, gap, ?_, ?_⟩, hne, hsolid⟩
  · simp only [List.forall_mem_append]
    exact ⟨⟨hindent, hspace⟩, hgap⟩
  · rw [hline, eq_append_of_after? hword, hafterWord, eq_append_of_after? hsign, hafterSign,
      eq_append_of_after? hquote]
    rfl

theorem versionOfLine_eq_none_iff {line : List Char} :
    versionOfLine line = none ↔ ∀ value rest, ¬Assigns line value rest := by
  refine ⟨fun hnone value rest h ↦ ?_, fun h ↦ ?_⟩
  · exact Option.some_ne_none _ (h.versionOfLine_eq.symm.trans hnone)
  · apply Option.eq_none_iff_forall_ne_some.2
    intro value hvalue
    obtain ⟨rest, hassigns⟩ := exists_assigns hvalue
    exact h value rest hassigns

/-- A manifest whose first line with a version assigns a value gives the longest value that the line
assigns. It is the given one exactly when no quote stands behind it before white space. -/
theorem versionToken_eq_value_iff {content : List UInt8} {before after : List (List Char)}
    {line value rest : List Char}
    (hlines : lines (Utf8.decodeLossy (Utf8.withoutMark content)) = before ++ line :: after)
    (hbefore : ∀ l ∈ before, ∀ v r, ¬Assigns l v r) (h : Assigns line value rest) :
    (versionToken content = some (String.ofList value) ↔ '\x22' ∉ solid rest) ∧
      ∃ longest, versionToken content = some (String.ofList longest) ∧
        (∃ r, Assigns line longest r) ∧ ∀ v r, Assigns line v r → v <+: longest := by
  have htoken : versionToken content = some (String.ofList (value ++ overrun rest)) := by
    have hnone : before.findSome? versionOfLine = none := by
      rw [List.findSome?_eq_none_iff]
      exact fun l hl ↦ versionOfLine_eq_none_iff.2 (hbefore l hl)
    rw [versionToken, versionOfChars, hlines, List.findSome?_append, hnone, Option.none_or,
      List.findSome?_cons, h.versionOfLine_eq]
    rfl
  refine ⟨?_, value ++ overrun rest, htoken, exists_assigns h.versionOfLine_eq, fun v r hv ↦ ?_⟩
  · rw [htoken, ← overrun_eq_nil_iff, Option.some_inj, String.ofList_inj]
    exact List.append_right_eq_self
  · have hsame := hv.versionOfLine_eq.symm.trans h.versionOfLine_eq
    exact ⟨overrun r, Option.some.inj hsame⟩

/-- A line with a comment behind the value. The quotes of the comment are behind white space. -/
def commentedLine : List Char := "  version\t= \"1.2.3\" # \"old\"".toList

def commentedManifest : List UInt8 := Utf8.encodeChars ("[package]\r\n".toList ++ commentedLine)

theorem commented_value :
    Assigns commentedLine "1.2.3".toList " # \"old\"".toList ∧
      (versionToken commentedManifest = some (String.ofList "1.2.3".toList) ↔
        '\x22' ∉ solid " # \"old\"".toList) := by
  have hassigns : Assigns commentedLine "1.2.3".toList " # \"old\"".toList :=
    ⟨⟨"  ".toList, "\t".toList, " ".toList, by simp [isBlank], rfl⟩, by decide, by simp [isBlank]⟩
  have hlines : lines (Utf8.decodeLossy (Utf8.withoutMark commentedManifest)) =
      ["[package]".toList] ++ commentedLine :: [] := by
    decide +kernel
  have hbefore : ∀ l ∈ ["[package]".toList], ∀ v r, ¬Assigns l v r := by
    rw [List.forall_mem_singleton, ← versionOfLine_eq_none_iff]
    decide
  exact ⟨hassigns, (versionToken_eq_value_iff hlines hbefore hassigns).1⟩

/-- A line whose comment follows the value without white space. -/
def crowdedLine : List Char := "version = \"1.2.3\"#\"old\"".toList

def crowdedManifest : List UInt8 := Utf8.encodeChars (crowdedLine ++ ['\n'])

/-- The quotes of such a comment are taken for the end of the value. -/
theorem crowded_value :
    lines (Utf8.decodeLossy (Utf8.withoutMark crowdedManifest)) = [crowdedLine, []] ∧
      Assigns crowdedLine "1.2.3".toList "#\"old\"".toList ∧ '\x22' ∉ "1.2.3".toList ∧
      versionToken crowdedManifest = some "1.2.3\"#\"old" := by
  have hassigns : Assigns crowdedLine "1.2.3".toList "#\"old\"".toList :=
    ⟨⟨[], " ".toList, " ".toList, by simp [isBlank], rfl⟩, by decide, by simp [isBlank]⟩
  exact ⟨by decide +kernel, hassigns, by decide, by decide +kernel⟩

end Manifest

end WixAuthoring
