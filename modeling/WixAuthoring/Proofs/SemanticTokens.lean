import WixAuthoring.Proofs.Decimals
import WixAuthoring.Proofs.Numerals
import WixAuthoring.Proofs.OutputPaths
import WixAuthoring.Proofs.Tokens
import WixAuthoring.Version.Semantic

namespace WixAuthoring

/-!
# Semantic versions as tokens

The text of a semantic version begins with its three numbers, and what follows them begins with a hyphen
or a plus sign. Neither way of reading a token takes any of it for one more number.
-/

namespace Text

open VersionSpelling

theorem isRun_repr (n : Nat) : IsRun isDigit n.repr.toList :=
  ⟨toList_repr_ne_nil n, fun _ ↦ isDigit_of_mem_repr⟩

theorem not_blank_of_printable {c : Char} (h : 0x21 ≤ c.toNat ∧ c.toNat ≤ 0x7E) : isBlank c = false := by
  simp only [isBlank, Bool.or_eq_false_iff, Bool.and_eq_false_iff, decide_eq_false_iff_not,
    beq_eq_false_iff_ne]
  omega

end Text

namespace VersionSpelling

open Text

variable {s number : List Char} {numbers : List (List Char)} {spelling : VersionSpelling}

/-- Holds of a text that is empty or begins with a hyphen or a plus sign. -/
def IsTail (s : List Char) : Prop := ∀ c ∈ s.head?, c = '-' ∨ c = '+'

theorem IsTail.endsNumber {counts : Char → Bool} (hs : IsTail s) (hhyphen : counts '-' = false)
    (hplus : counts '+' = false) : EndsNumber counts s := by
  intro c hc
  rcases hs c hc with rfl | rfl
  · exact ⟨hhyphen, by decide⟩
  · exact ⟨hplus, by decide⟩

theorem IsTail.lower (hs : IsTail s) : IsTail (s.map Char.toLower) := by
  intro c hc
  rw [List.head?_map] at hc
  obtain ⟨d, hd, rfl⟩ := Option.map_eq_some_iff.1 hc
  rcases hs d hd with rfl | rfl
  · exact .inl rfl
  · exact .inr rfl

theorem dropMark_of_isRun (hnumber : IsRun isDigit number) (s : List Char) :
    dropMark (number ++ s) = number ++ s := by
  obtain ⟨c, more, rfl⟩ := List.exists_cons_of_ne_nil hnumber.1
  rw [dropMark.eq_def]
  split
  · next heq =>
      obtain rfl : c = 'v' := (List.cons.inj heq).1
      exact absurd (hnumber.2 'v' List.mem_cons_self) (by decide)
  · rfl

theorem scanEpoch_of_isRun (hnumber : IsRun isDigit number) (hs : IsTail s)
    (numbers : List (List Char)) :
    scanEpoch (number ++ (dotted numbers ++ s)) = ([], number ++ (dotted numbers ++ s)) := by
  have hdrop := dropWhile_append_dotted (by decide) hnumber (hs.endsNumber rfl rfl) numbers
  rw [scanEpoch, dropDigits, hdrop]
  split
  · next rest heq =>
      cases numbers with
      | nil =>
          have hhead : '!' ∈ s.head? := congrArg List.head? heq
          rcases hs '!' hhead with h | h <;> cases h
      | cons first more => cases heq
  · rfl

/-- The release of a spelling is all of the numbers in front of a tail. -/
theorem scan_of_isTail (hruns : ∀ n ∈ number :: numbers, IsRun isDigit n) (hs : IsTail s)
    (h : scan (number ++ (dotted numbers ++ s)) = some spelling) :
    spelling.epoch = [] ∧ spelling.release = number :: numbers := by
  rw [List.forall_mem_cons] at hruns
  have hrelease := scanRelease_dotted hruns.1 hruns.2 (hs.endsNumber rfl rfl)
  rw [scan, dropMark_of_isRun hruns.1, scanEpoch_of_isRun hruns.1 hs, hrelease] at h
  obtain ⟨label, -, rfl⟩ := Option.map_eq_some_iff.1 h
  exact ⟨rfl, rfl⟩

theorem ofChars?_of_isTail (hruns : ∀ n ∈ number :: numbers, IsRun isDigit n) (hs : IsTail s)
    (hsolid : ∀ c ∈ s, isBlank c = false)
    (h : ofChars? (number ++ (dotted numbers ++ s)) = some spelling) :
    spelling.epoch = [] ∧ spelling.release = number :: numbers := by
  have hwritten : DigitsAndDots (number ++ dotted numbers) :=
    digitsAndDots_append_dotted fun n hn ↦ (hruns n hn).script
  have htrim : trimBlanks (number ++ (dotted numbers ++ s)) = number ++ (dotted numbers ++ s) := by
    apply trimBlanks_eq_self
    rw [← List.append_assoc, List.forall_mem_append]
    exact ⟨fun c hc ↦ (hwritten c hc).not_blank, hsolid⟩
  have hlower : (number ++ (dotted numbers ++ s)).map Char.toLower =
      number ++ (dotted numbers ++ s.map Char.toLower) := by
    rw [← List.append_assoc, List.map_append, List.map_congr_left fun c hc ↦ (hwritten c hc).toLower,
      List.map_id', List.append_assoc]
  rw [ofChars?, htrim, hlower] at h
  exact scan_of_isTail hruns hs.lower h

end VersionSpelling

namespace VersionToken

open Text VersionSpelling

variable {s number : List Char} {numbers : List (List Char)}

theorem takeFurther_of_endsNumber (hs : EndsNumber isScriptDigit s) (fuel : Nat) :
    takeFurther fuel s = ([], s) := by
  rw [takeFurther.eq_def]
  split
  · exact absurd rfl (hs '.' rfl).2
  · rfl

theorem takeFurther_append (hnumbers : ∀ n ∈ numbers, IsRun isScriptDigit n)
    (hs : EndsNumber isScriptDigit s) {fuel : Nat} (hfuel : numbers.length ≤ fuel) :
    takeFurther fuel (dotted numbers ++ s) = (dotted numbers, s) := by
  induction numbers generalizing fuel with
  | nil => exact takeFurther_of_endsNumber hs fuel
  | cons number numbers ih =>
      rw [List.forall_mem_cons] at hnumbers
      cases fuel with
      | zero => simp at hfuel
      | succ fuel =>
          have htake := takeWhile_append_dotted (by decide) hnumbers.1 hs numbers
          have hdrop := dropWhile_append_dotted (by decide) hnumbers.1 hs numbers
          rw [dotted_cons, List.cons_append, List.append_assoc, takeFurther, takeNumber, dropNumber,
            htake, hdrop, if_neg hnumbers.1.1, ih hnumbers.2 (Nat.le_of_succ_le_succ hfuel)]
          rfl

theorem isEnd_or_isQualifier (hs : IsTail s) (hsolid : ∀ c ∈ s, isBlank c = false) :
    (isEnd s || isQualifier s) = true := by
  cases s with
  | nil => rfl
  | cons c s =>
      have hrest : (s.dropWhile fun c ↦ !isBlank c) = [] := by
        rw [List.dropWhile_eq_nil_iff]
        intro d hd
        rw [hsolid d (List.mem_cons_of_mem c hd), Bool.not_false]
      rw [isQualifier, hrest]
      rcases hs c rfl with rfl | rfl
      · exact Bool.or_true _
      · exact Bool.or_true _

theorem releaseChars?_of_isTail (hruns : ∀ n ∈ number :: numbers, IsRun isScriptDigit n) (hs : IsTail s)
    (hsolid : ∀ c ∈ s, isBlank c = false) :
    releaseChars? (number ++ (dotted numbers ++ s)) = some (number ++ dotted numbers) := by
  rw [List.forall_mem_cons] at hruns
  have hends : EndsNumber isScriptDigit s := hs.endsNumber (by decide) (by decide)
  have htake := takeWhile_append_dotted (by decide) hruns.1 hends numbers
  have hdrop := dropWhile_append_dotted (by decide) hruns.1 hends numbers
  have hfuel := length_le_length_release number numbers s
  rw [releaseChars?, takeNumber, dropNumber, htake, hdrop, takeFurther_append hruns.2 hends hfuel]
  dsimp only
  rw [if_neg hruns.1.1, if_pos (isEnd_or_isQualifier hs hsolid)]

end VersionToken

namespace SemanticVersion

open Text VersionSpelling

variable (v : SemanticVersion)

/-- What follows the release in the text of a semantic version. -/
def tail : List Char := (qualifier "-" v.preRelease ++ qualifier "+" v.build).toList

theorem toList_text : v.text.toList =
    v.major.repr.toList ++ (dotted [v.minor.repr.toList, v.patch.repr.toList] ++ v.tail) := by
  simp [text, release, tail, join]

theorem text_ne_empty : v.text ≠ "" := by
  intro hempty
  have hnil := congrArg String.toList hempty
  rw [toList_text] at hnil
  exact (isRun_repr v.major).1 (List.append_eq_nil_iff.1 hnil).1

theorem isTail_tail : IsTail v.tail := by
  intro c hc
  rw [tail, String.toList_append] at hc
  by_cases hpre : v.preRelease = []
  · by_cases hbuild : v.build = []
    · simp [hpre, hbuild] at hc
    · rw [hpre, qualifier_nil, qualifier_of_ne_nil _ hbuild] at hc
      have hplus : '+' = c := by simpa using hc
      exact .inr hplus.symm
  · rw [qualifier_of_ne_nil _ hpre] at hc
    have hhyphen : '-' = c := by simpa using hc
    exact .inl hhyphen.symm

theorem not_blank_of_mem_qualifier {mark : String} (hmark : ∀ c ∈ mark.toList, isBlank c = false)
    {parts : List (List Char)} (h : ∀ part ∈ parts, IsPart part) :
    ∀ c ∈ (qualifier mark parts).toList, isBlank c = false := by
  rw [qualifier]
  split
  · simp
  · rw [String.toList_append, List.forall_mem_append]
    refine ⟨hmark, forall_mem_join (by simp [isBlank]) _ fun s hs c hc ↦ ?_⟩
    obtain ⟨part, hpart, rfl⟩ := List.mem_map.1 hs
    rw [String.toList_ofList] at hc
    apply not_blank_of_printable
    rcases Bool.or_eq_true_iff.1 ((h part hpart).2 c hc) with hc | hc
    · have := Xml.range_of_isAlphanum hc
      omega
    · obtain rfl := eq_of_beq hc
      decide

theorem not_blank_of_mem_tail : ∀ c ∈ v.tail, isBlank c = false := by
  rw [tail, String.toList_append, List.forall_mem_append]
  have hmarks : isBlank '-' = false ∧ isBlank '+' = false := by decide
  refine ⟨not_blank_of_mem_qualifier ?_ fun part hpart ↦ (v.legal_preRelease part hpart).1,
    not_blank_of_mem_qualifier ?_ v.legal_build⟩
  · simpa using hmarks.1
  · simpa using hmarks.2

/-- The numbers of the release as they are written. -/
def written : List (List Char) := v.release.map fun n ↦ n.repr.toList

theorem map_numeral_written : v.written.map numeral = v.release := by
  rw [written, List.map_map]
  exact (List.map_congr_left fun n _ ↦ numeral_repr n).trans (List.map_id' _)

theorem isRun_of_mem_written : ∀ digits ∈ v.written, IsRun isDigit digits := by
  intro digits hdigits
  obtain ⟨n, -, rfl⟩ := List.mem_map.1 hdigits
  exact isRun_repr n

theorem isNumeralOf_of_mem_written : ∀ digits ∈ v.written, IsNumeralOf v.text.toList digits := by
  intro digits hdigits
  refine ⟨?_, (v.isRun_of_mem_written digits hdigits).2⟩
  rw [toList_text, ← List.append_assoc]
  apply List.IsInfix.trans _ (List.prefix_append _ v.tail).isInfix
  rcases List.mem_cons.1 hdigits with rfl | hdigits
  · exact (List.prefix_append _ _).isInfix
  · exact (infix_dotted hdigits).trans (List.suffix_append _ _).isInfix

section ShortNumerals

variable {v} (hshort : ∀ digits, IsNumeralOf v.text.toList digits → digits.length ≤ longestNumeral)
include hshort

/-- A token that spells a version of the installer's scheme has no further number in its release, and
from any other token the release is read alone. -/
theorem tokenVersion_text (manifest : String) : ∃ version,
    Manifest.tokenVersion manifest v.text = .ok version ∧ version.epoch = 0 ∧
      version.release = v.release := by
  cases hspelling : ofChars? v.text.toList with
  | some spelling =>
      -- the token is read as it stands, and whatever the tail spells, the release is in front of it
      have hread := ofChars?_numerals hspelling
      have hspelled := hspelling
      rw [toList_text] at hspelled
      obtain ⟨hepoch, hrelease⟩ :=
        ofChars?_of_isTail v.isRun_of_mem_written v.isTail_tail v.not_blank_of_mem_tail hspelled
      refine ⟨spelling.value, ?_, ?_, ?_⟩
      · rw [Manifest.tokenVersion_of_spelling hspelling,
          unlessTooLong_of_short fun digits hdigits ↦ hshort digits (hread digits hdigits)]
        rfl
      · rw [value, hepoch, numeral_nil]
      · rw [value, hrelease]
        exact v.map_numeral_written
  | none =>
      -- the release alone is cut off and read again
      have hruns := v.isRun_of_mem_written
      have hscript : ∀ n ∈ v.written, IsRun isScriptDigit n := fun n hn ↦ (hruns n hn).script
      have hrelease : VersionToken.releaseChars? v.text.toList =
          some (v.major.repr.toList ++ dotted [v.minor.repr.toList, v.patch.repr.toList]) := by
        rw [toList_text]
        exact VersionToken.releaseChars?_of_isTail hscript v.isTail_tail v.not_blank_of_mem_tail
      have hwritten : ∀ digits ∈ [] :: v.written, digits.length ≤ longestNumeral := by
        rw [List.forall_mem_cons]
        exact ⟨Nat.zero_le _, fun digits hdigits ↦
          hshort digits (v.isNumeralOf_of_mem_written digits hdigits)⟩
      refine ⟨{ release := v.written.map numeral }, ?_, rfl, v.map_numeral_written⟩
      rw [Manifest.tokenVersion_of_digits hspelling hrelease hscript fun n hn ↦ (hruns n hn).2]
      change (unlessTooLong ([] :: v.written) _).mapError _ = _
      rw [unlessTooLong_of_short hwritten]
      rfl

/-- A semantic version is accepted with its own numbers. The product shows them as its version and is
named by the text. -/
theorem product_of_text (manifest : String) : ∃ version,
    Manifest.tokenVersion manifest v.text = .ok version ∧ version.epoch = 0 ∧
      version.release = v.release ∧
      (Product.package version (some v.text)).installerVersion =
        join "." (v.release.map toString) ∧
      (Product.package version (some v.text)).versionLabel = v.text ∧
      (Product.package version (some v.text)).outputStem = "octobuild-" ++ v.text := by
  obtain ⟨version, htoken, hepoch, hrelease⟩ := tokenVersion_text hshort manifest
  have htext : given (some v.text) = some v.text := given_some v.text_ne_empty
  refine ⟨version, htoken, hepoch, hrelease, ?_, ?_, Product.outputStem_package _ v.text_ne_empty⟩
  · change version.installerText = _
    rw [Version.installerText, Version.releaseText, Version.triple, hrelease]
    rfl
  · rw [Package.versionLabel, Product.package, htext]
    dsimp only [Option.getD_some]
    rw [htext]
    rfl

end ShortNumerals

/-- A version whose pre-release is none that the installer's scheme knows. -/
def foreignStage : SemanticVersion where
  major := 1
  minor := 20
  patch := 3
  preRelease := ["alpha".toList, "beta".toList]
  build := ["007".toList]
  legal_preRelease := by simp [IsPreReleasePart, IsPart, isPartChar]
  legal_build := by simp [IsPart, isPartChar]

theorem foreignStage_product :
    foreignStage.text = "1.20.3-alpha.beta+007" ∧ ∃ version,
      Manifest.tokenVersion "Cargo.toml" foreignStage.text = .ok version ∧ version.epoch = 0 ∧
        version.release = [1, 20, 3] ∧
        (Product.package version (some foreignStage.text)).installerVersion = "1.20.3" ∧
        (Product.package version (some foreignStage.text)).versionLabel = foreignStage.text ∧
        (Product.package version (some foreignStage.text)).outputStem =
          "octobuild-" ++ foreignStage.text := by
  refine ⟨rfl, product_of_text (fun digits hdigits ↦ ?_) "Cargo.toml"⟩
  have hlength : foreignStage.text.toList.length ≤ longestNumeral := by decide +kernel
  exact hdigits.1.length_le.trans hlength

end SemanticVersion

end WixAuthoring
