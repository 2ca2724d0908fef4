import WixAuthoring.Proofs.Pipeline
import WixAuthoring.Proofs.Spellings

namespace WixAuthoring

/-!
# Bad versions

A token that stands for no version is a mistake in the configuration, and the program reports it. The
exception is a number that the reader of versions gives up on: one that is too long, or one of the
digits of another script in the release before a qualifier. Its error is let through.
-/

namespace VersionToken

open Text VersionSpelling

theorem takeFurther_dotted (fuel : Nat) (s : List Char) : ∃ numbers,
    (takeFurther fuel s).1 = dotted numbers ∧ ∀ n ∈ numbers, IsRun isScriptDigit n := by
  fun_induction takeFurther fuel s with
  | case1 => exact ⟨[], rfl, by simp⟩
  | case2 fuel s h further ih =>
      obtain ⟨numbers, hfurther, hruns⟩ := ih
      refine ⟨takeNumber s :: numbers, ?_, List.forall_mem_cons.2 ⟨isRun_takeWhile h, hruns⟩⟩
      rw [dotted_cons, ← hfurther]
      rfl
  | case3 => exact ⟨[], rfl, by simp⟩

theorem releaseChars?_dotted {s release : List Char} (h : releaseChars? s = some release) :
    ∃ number numbers, release = number ++ dotted numbers ∧
      ∀ n ∈ number :: numbers, IsRun isScriptDigit n := by
  obtain ⟨numbers, hfurther, hruns⟩ := takeFurther_dotted s.length (dropNumber s)
  rw [releaseChars?] at h
  split at h
  · cases h
  · next hfirst =>
      split at h
      · cases h
        exact ⟨takeNumber s, numbers, by rw [hfurther],
          List.forall_mem_cons.2 ⟨isRun_takeWhile hfirst, hruns⟩⟩
      · cases h

end VersionToken

namespace Manifest

open Text VersionSpelling

variable {manifest token : String} {spelling : VersionSpelling} {number release : List Char}
  {numbers : List (List Char)}

/-- Holds of a token whose numbers can be read. No number may be too long; in a token of another scheme
the numbers of the release must moreover be written with ASCII digits. -/
def IsReadable (token : String) : Prop :=
  match VersionSpelling.ofChars? token.toList with
  | some spelling => ∀ digits ∈ spelling.numerals, digits.length ≤ longestNumeral
  | none =>
    ∀ release, VersionToken.releaseChars? token.toList = some release →
      ∀ digits ∈ splitChars (· == '.') release,
        (∀ c ∈ digits, isDigit c = true) ∧ digits.length ≤ longestNumeral

/-! ## Tokens that are spelled like versions -/

theorem isReadable_of_spelling (h : VersionSpelling.ofChars? token.toList = some spelling) :
    IsReadable token ↔ ∀ digits ∈ spelling.numerals, digits.length ≤ longestNumeral := by
  rw [IsReadable, h]

theorem tokenVersion_of_spelling (h : VersionSpelling.ofChars? token.toList = some spelling) :
    tokenVersion manifest token =
      (unlessTooLong spelling.numerals spelling.value).mapError .version := by
  rw [tokenVersion, Version.parse, h]
  dsimp only
  rw [read_eq]
  by_cases hshort : ∀ digits ∈ spelling.numerals, digits.length ≤ longestNumeral
  · rw [unlessTooLong_of_short hshort]
    rfl
  · obtain ⟨n, hlong⟩ := unlessTooLong_of_long hshort spelling.value
    rw [hlong]
    rfl

/-! ## Tokens of other schemes -/

section OtherSchemes

variable (h : VersionSpelling.ofChars? token.toList = none)
include h

theorem isReadable_of_no_release (hrelease : VersionToken.releaseChars? token.toList = none) :
    IsReadable token := by
  rw [IsReadable, h]
  intro release hsome
  rw [hrelease] at hsome
  cases hsome

theorem tokenVersion_of_no_release (hrelease : VersionToken.releaseChars? token.toList = none) :
    tokenVersion manifest token = .error (.configuration (.invalidVersion manifest token)) := by
  rw [tokenVersion, Version.parse, h, VersionToken.release?, hrelease]
  rfl

variable (hrelease : VersionToken.releaseChars? token.toList = some (number ++ dotted numbers))
  (hruns : ∀ n ∈ number :: numbers, IsRun isScriptDigit n)
include hrelease hruns

theorem isReadable_of_release :
    IsReadable token ↔ (∀ n ∈ number :: numbers, ∀ c ∈ n, isDigit c = true) ∧
      ∀ n ∈ [] :: number :: numbers, n.length ≤ longestNumeral := by
  rw [IsReadable, h]
  dsimp only
  rw [hrelease]
  simp only [Option.some.injEq, forall_eq']
  rw [splitChars_dotted hruns, forall₂_and, List.forall_mem_cons (a := [])]
  simp only [List.length_nil, Nat.zero_le, true_and]

theorem tokenVersion_of_digits (hdigits : ∀ n ∈ number :: numbers, ∀ c ∈ n, isDigit c = true) :
    tokenVersion manifest token =
      (unlessTooLong ([] :: number :: numbers)
        { release := (number :: numbers).map numeral : Version }).mapError .version := by
  rw [tokenVersion, Version.parse, h, VersionToken.release?, hrelease]
  dsimp only [Option.map_some]
  rw [Version.parse, String.toList_ofList, ofChars?_of_digits hruns hdigits]
  dsimp only
  rw [read_eq]
  simp [numerals, value]

theorem tokenVersion_of_other_digits
    (hother : ¬∀ n ∈ number :: numbers, ∀ c ∈ n, isDigit c = true) :
    tokenVersion manifest token =
      .error (.version (.malformed (String.ofList (number ++ dotted numbers)))) := by
  rw [tokenVersion, Version.parse, h, VersionToken.release?, hrelease]
  dsimp only [Option.map_some]
  rw [Version.parse, String.toList_ofList, ofChars?_of_other_digits hruns hother]
  rfl

end OtherSchemes

/-! ## All tokens -/

/-- A token is accepted or reported when its numbers can be read, and otherwise lets an error of the
version reader through. -/
theorem tokenVersion_cases (manifest token : String) :
    (IsReadable token ∧ ∃ version, tokenVersion manifest token = .ok version) ∨
    (IsReadable token ∧
      tokenVersion manifest token = .error (.configuration (.invalidVersion manifest token))) ∨
    (¬IsReadable token ∧ ∃ e, tokenVersion manifest token = .error (.version e)) := by
  cases hspelling : VersionSpelling.ofChars? token.toList with
  | some spelling =>
      rw [isReadable_of_spelling hspelling, tokenVersion_of_spelling hspelling]
      by_cases hshort : ∀ digits ∈ spelling.numerals, digits.length ≤ longestNumeral
      · rw [unlessTooLong_of_short hshort]
        exact .inl ⟨hshort, _, rfl⟩
      · obtain ⟨n, hlong⟩ := unlessTooLong_of_long hshort spelling.value
        rw [hlong]
        exact .inr (.inr ⟨hshort, _, rfl⟩)
  | none =>
      cases hrelease : VersionToken.releaseChars? token.toList with
      | none =>
          exact .inr (.inl ⟨isReadable_of_no_release hspelling hrelease,
            tokenVersion_of_no_release hspelling hrelease⟩)
      | some release =>
          obtain ⟨number, numbers, rfl, hruns⟩ := VersionToken.releaseChars?_dotted hrelease
          rw [isReadable_of_release hspelling hrelease hruns]
          by_cases hdigits : ∀ n ∈ number :: numbers, ∀ c ∈ n, isDigit c = true
          · rw [tokenVersion_of_digits hspelling hrelease hruns hdigits]
            by_cases hshort : ∀ n ∈ [] :: number :: numbers, n.length ≤ longestNumeral
            · rw [unlessTooLong_of_short hshort]
              exact .inl ⟨⟨hdigits, hshort⟩, _, rfl⟩
            · obtain ⟨n, hlong⟩ := unlessTooLong_of_long hshort
                ({ release := (number :: numbers).map numeral } : Version)
              rw [hlong]
              exact .inr (.inr ⟨fun h ↦ hshort h.2, _, rfl⟩)
          · rw [tokenVersion_of_other_digits hspelling hrelease hruns hdigits]
            exact .inr (.inr ⟨fun h ↦ hdigits h.1, _, rfl⟩)

end Manifest

namespace Program

open CommandLine Machine

variable {m : Machine} {o : Options} {arguments : List String} {content : List UInt8}
  {token : String}

/-- The machine after a mistake has been logged and told. -/
def reported (e : ConfigurationError) (m : Machine) : Machine :=
  (Journal.error e.message m).2.told ("error: " ++ e.message)

theorem recover_eq_reported (e : ConfigurationError) (m : Machine) :
    recover (.configuration e) m = (.code 2, reported e m) := by
  rw [recover, Action.effect_bind_apply, Action.effect_bind_apply, print_apply]
  rfl

theorem manifestVersion_of_token {s : Store} {here : Location} {path : Path}
    (hread : s.read here path.text = .ok content)
    (htoken : Manifest.versionToken content = some token) :
    manifestVersion s here path =
      (fun version ↦ (token, version)) <$> Manifest.tokenVersion path.text token := by
  rw [manifestVersion, hread]
  change (Manifest.requireVersion path.text (Manifest.versionToken content) >>= _) = _
  rw [htoken]
  exact bind_pure_comp _ _

/-- What the version command does on a manifest. -/
theorem run_version (hparse : CommandLine.parse arguments = .ok o)
    (hcommand : o.command = some .version) (m : Machine) :
    run arguments m = match manifestVersion m.store m.here o.manifest with
      | .error e => recover e m
      | .ok (token, _) => (.code 0, m.told token) := by
  rw [run_of_parse hparse, perform, hcommand]
  dsimp only
  rw [showVersion, Action.bind_apply, readManifest_apply]
  cases manifestVersion m.store m.here o.manifest with
  | error e => rfl
  | ok found => rfl

/-- The version command answers or reports, or an error of the version reader ends the run. -/
theorem run_version_cases (hparse : CommandLine.parse arguments = .ok o)
    (hcommand : o.command = some .version)
    (hread : m.store.read m.here o.manifest.text = .ok content) :
    ((∀ token, Manifest.versionToken content = some token → Manifest.IsReadable token) ∧
      ((∃ token, Manifest.versionToken content = some token ∧
          run arguments m = (.code 0, m.told token)) ∨
        ∃ e, run arguments m = (.code 2, reported e m))) ∨
    ((∃ token, Manifest.versionToken content = some token ∧ ¬Manifest.IsReadable token) ∧
      ∃ e, run arguments m = (.failed (.version e), m)) := by
  rw [run_version hparse hcommand]
  cases htoken : Manifest.versionToken content with
  | none =>
      rw [manifestVersion_of_no_token hread htoken]
      exact .inl ⟨fun _ h ↦ (nomatch h), .inr ⟨_, recover_eq_reported _ m⟩⟩
  | some token =>
      have honly {word : String} (h : some token = some word) (hread : Manifest.IsReadable token) :
          Manifest.IsReadable word := Option.some.inj h ▸ hread
      rw [manifestVersion_of_token hread htoken]
      rcases Manifest.tokenVersion_cases o.manifest.text token with
        ⟨hreadable, version, hversion⟩ | ⟨hreadable, hversion⟩ | ⟨hnot, e, hversion⟩ <;>
        rw [hversion]
      · exact .inl ⟨fun _ h ↦ honly h hreadable, .inl ⟨token, rfl, rfl⟩⟩
      · exact .inl ⟨fun _ h ↦ honly h hreadable, .inr ⟨_, recover_eq_reported _ m⟩⟩
      · exact .inr ⟨⟨token, rfl, hnot⟩, e, rfl⟩

/-- A bad version is taken for a mistake, and the version command answers or reports, exactly when the
numbers of the token can be read. Otherwise an error of the version reader ends the run. -/
theorem bad_versions_reported_iff (manifest token : String) :
    (((∃ version, Manifest.tokenVersion manifest token = .ok version) ∨
        Manifest.tokenVersion manifest token =
          .error (.configuration (.invalidVersion manifest token))) ↔
      Manifest.IsReadable token) ∧
    ∀ arguments o m content, CommandLine.parse arguments = .ok o → o.command = some .version →
      m.store.read m.here o.manifest.text = .ok content →
      (((∃ token, Manifest.versionToken content = some token ∧
            run arguments m = (.code 0, m.told token)) ∨
          ∃ e, run arguments m = (.code 2, reported e m)) ↔
        ∀ token, Manifest.versionToken content = some token → Manifest.IsReadable token) ∧
      ((∃ e, run arguments m = (.failed (.version e), m)) ↔
        ∃ token, Manifest.versionToken content = some token ∧ ¬Manifest.IsReadable token) := by
  constructor
  · rcases Manifest.tokenVersion_cases manifest token with
      ⟨hreadable, hversion⟩ | ⟨hreadable, hversion⟩ | ⟨hnot, e, hversion⟩
    · exact iff_of_true (.inl hversion) hreadable
    · exact iff_of_true (.inr hversion) hreadable
    · rw [hversion]
      exact iff_of_false (by rintro (⟨_, h⟩ | h) <;> cases h) hnot
  · intro arguments o m content hparse hcommand hread
    rcases run_version_cases hparse hcommand hread with
      ⟨hreadable, hrun⟩ | ⟨⟨token, htoken, hnot⟩, e, hrun⟩
    · refine ⟨iff_of_true hrun hreadable, iff_of_false ?_ ?_⟩
      · rintro ⟨e, h⟩
        rw [h] at hrun
        rcases hrun with ⟨_, -, h⟩ | ⟨_, h⟩ <;> exact Ending.noConfusion (Prod.mk.inj h).1
      · rintro ⟨token, htoken, hnot⟩
        exact hnot (hreadable token htoken)
    · rw [hrun]
      refine ⟨iff_of_false ?_ fun h ↦ hnot (h token htoken), iff_of_true ⟨e, rfl⟩ ⟨token, htoken, hnot⟩⟩
      rintro (⟨_, -, h⟩ | ⟨_, h⟩) <;> exact Ending.noConfusion (Prod.mk.inj h).1

/-- A machine whose manifest has a token with words of another scheme behind the release. -/
def qualified : Machine := manifestOnly (versionLine "1.0.0-alpha.beta") []

theorem qualified_reported :
    Manifest.IsReadable "1.0.0-alpha.beta" ∧
    ((∃ token, Manifest.versionToken (versionLine "1.0.0-alpha.beta") = some token ∧
        run ["version"] qualified = (.code 0, qualified.told token)) ∨
      ∃ e, run ["version"] qualified = (.code 2, reported e qualified)) := by
  have htoken : Manifest.versionToken (versionLine "1.0.0-alpha.beta") = some "1.0.0-alpha.beta" := by
    decide +kernel
  obtain ⟨hiff, hrun⟩ := bad_versions_reported_iff "Cargo.toml" "1.0.0-alpha.beta"
  have hreadable : Manifest.IsReadable "1.0.0-alpha.beta" := hiff.1 (.inl ⟨_, rfl⟩)
  have hversion := hrun ["version"] { command := some .version } qualified _ rfl rfl
    (manifestOnly_read _ _)
  refine ⟨hreadable, hversion.1.2 fun token h ↦ ?_⟩
  obtain rfl := Option.some.inj (htoken.symm.trans h)
  exact hreadable

/-- A machine whose manifest has a release in Arabic digits before a hyphen. -/
def foreign : Machine := manifestOnly (versionLine "\u0661.\u0662-x") []

/-- The error of the version reader about such a release is let through. -/
theorem foreign_not_reported :
    Manifest.tokenVersion "Cargo.toml" "\u0661.\u0662-x" =
      .error (.version (.malformed "\u0661.\u0662")) ∧
    run ["version"] foreign = (.failed (.version (.malformed "\u0661.\u0662")), foreign) := by
  have htoken : Manifest.versionToken (versionLine "\u0661.\u0662-x") = some "\u0661.\u0662-x" := by
    decide +kernel
  have hversion : Manifest.tokenVersion "Cargo.toml" "\u0661.\u0662-x" =
      .error (.version (.malformed "\u0661.\u0662")) := by
    rfl
  refine ⟨hversion, ?_⟩
  have hmanifest : manifestVersion foreign.store foreign.here (Path.parse "Cargo.toml") = _ :=
    manifestVersion_of_token (manifestOnly_read _ _) htoken
  rw [run_version (o := { command := some .version }) rfl rfl]
  dsimp only
  rw [hmanifest, show (Path.parse "Cargo.toml").text = "Cargo.toml" from rfl, hversion]
  rfl

end Program

end WixAuthoring
