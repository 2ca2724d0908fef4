import Mathlib.Data.List.Lex
import WixAuthoring.Proofs.SemanticTokens
import WixAuthoring.Version.Order

namespace WixAuthoring

/-!
# Installer versions

An installer compares products by three numbers. They can be read off the text that it is given, and
they never fall from one version of an epoch to a later one, however long the releases are.
-/

namespace Version

/-! ## The first numbers of a release -/

def firstNumbers (count : Nat) (release : List Nat) : List Nat :=
  (release ++ List.replicate count 0).take count

theorem triple_eq_firstNumbers (v : Version) : v.triple = firstNumbers 3 v.release := rfl

@[simp] theorem firstNumbers_zero (release : List Nat) : firstNumbers 0 release = [] :=
  List.take_zero

@[simp] theorem firstNumbers_nil (count : Nat) : firstNumbers count [] = List.replicate count 0 := by
  simp [firstNumbers]

@[simp] theorem firstNumbers_cons (count n : Nat) (release : List Nat) :
    firstNumbers (count + 1) (n :: release) = n :: firstNumbers count release := by
  have htake : (release ++ List.replicate (count + 1) 0).take count =
      (release ++ List.replicate count 0).take count := by
    rw [List.replicate_succ', ← List.append_assoc, List.take_append_of_le_length (by simp)]
  rw [firstNumbers, List.cons_append, List.take_succ_cons, htake, firstNumbers]

@[simp] theorem length_firstNumbers (count : Nat) (release : List Nat) :
    (firstNumbers count release).length = count := by
  simp [firstNumbers]

/-- Zeros at the end of a release are no different from zeros that are filled in. -/
theorem firstNumbers_trimZeros (count : Nat) (release : List Nat) :
    firstNumbers count (trimZeros release) = firstNumbers count release := by
  induction release generalizing count with
  | nil => rfl
  | cons n release ih =>
      cases count with
      | zero => rw [firstNumbers_zero, firstNumbers_zero]
      | succ count =>
          rw [trimZeros_cons, firstNumbers_cons, ← ih count]
          split
          · next hzero =>
              rw [hzero.1, hzero.2, firstNumbers_nil, firstNumbers_nil, List.replicate_succ]
          · exact firstNumbers_cons count n _

theorem replicate_zero_le (numbers : List Nat) : List.replicate numbers.length 0 ≤ numbers := by
  induction numbers with
  | nil => exact le_refl []
  | cons n numbers ih =>
      rw [List.length_cons, List.replicate_succ]
      rcases Nat.eq_zero_or_pos n with rfl | hn
      · exact List.cons_le_cons 0 ih
      · exact le_of_lt (List.Lex.rel hn)

/-- The induction is on how many numbers are shown. As long as the releases agree, what is left of
them is in the same order, and a release that has ended is the smallest. -/
theorem firstNumbers_le {r s : List Nat} (h : (compare r s).isLE = true) (count : Nat) :
    firstNumbers count r ≤ firstNumbers count s := by
  induction count generalizing r s with
  | zero => rw [firstNumbers_zero, firstNumbers_zero]
  | succ count ih =>
      cases r with
      | nil =>
          have hleast := replicate_zero_le (firstNumbers (count + 1) s)
          rwa [length_firstNumbers, ← firstNumbers_nil] at hleast
      | cons m r =>
          cases s with
          | nil =>
              rw [List.compare_cons_nil] at h
              cases h
          | cons n s =>
              rw [List.compare_cons_cons, Ordering.isLE_then_iff_or, Nat.compare_eq_lt,
                Nat.compare_eq_eq] at h
              rw [firstNumbers_cons, firstNumbers_cons]
              rcases h with hless | ⟨rfl, hrest⟩
              · exact le_of_lt (List.Lex.rel hless)
              · exact List.cons_le_cons m (ih hrest)

/-- Within an epoch the release decides before whatever qualifies it. -/
theorem triple_le {v w : Version} (hepoch : v.epoch = w.epoch) (h : v ≤ w) : v.triple ≤ w.triple := by
  have hrelease : (compare (trimZeros v.release) (trimZeros w.release)).isLE = true := by
    change ((compare v.epoch w.epoch).then _).isLE = true at h
    rw [hepoch, Nat.compare_eq_eq.2 rfl, Ordering.eq_then, Ordering.isLE_then_iff_and] at h
    exact h.1
  have hle := firstNumbers_le hrelease 3
  rwa [firstNumbers_trimZeros, firstNumbers_trimZeros] at hle

end Version

/-! ## The text of an installer version -/

open Text

/-- The numbers of a text that is made of three of them with dots between. -/
def installerNumbers? (s : String) : Option (List Nat) :=
  let pieces := splitChars (· == '.') s.toList
  if pieces.length = 3 ∧ ∀ piece ∈ pieces, piece ≠ [] ∧ piece.all isDigit = true then
    some (pieces.map numeral)
  else none

theorem Version.installerNumbers?_installerText (v : Version) :
    installerNumbers? v.installerText = some v.triple := by
  obtain ⟨l, m, n, htriple⟩ := List.length_eq_three.1 v.length_triple
  have htext : v.installerText.toList =
      l.repr.toList ++ VersionSpelling.dotted [m.repr.toList, n.repr.toList] := by
    rw [installerText, releaseText, htriple]
    simp [join]
  have hruns : ∀ number ∈ [l.repr.toList, m.repr.toList, n.repr.toList],
      VersionSpelling.IsRun isDigit number := by
    simp only [List.forall_mem_cons]
    exact ⟨isRun_repr l, isRun_repr m, isRun_repr n, by simp⟩
  rw [installerNumbers?, htext,
    VersionSpelling.splitChars_dotted fun number hnumber ↦ (hruns number hnumber).script]
  rw [if_pos ⟨rfl, fun number hnumber ↦ ⟨(hruns number hnumber).1,
    List.all_eq_true.2 (hruns number hnumber).2⟩⟩, htriple]
  simp only [List.map_cons, List.map_nil, numeral_repr]

theorem Version.triple_eq_getD (v : Version) :
    v.triple = [v.release.getD 0 0, v.release.getD 1 0, v.release.getD 2 0] := by
  rw [triple_eq_firstNumbers]
  rcases v.release with _ | ⟨l, _ | ⟨m, _ | ⟨n, rest⟩⟩⟩ <;> simp [List.replicate_succ]

namespace Package

/-- An installer finds three numbers in the version of a package, the first ones of its release. From a
package to one of the same epoch that is not earlier they never fall, so a later release is never
taken for an earlier one. -/
theorem installerVersion_mono :
    (∀ p : Package, installerNumbers? p.installerVersion =
      some [p.version.release.getD 0 0, p.version.release.getD 1 0, p.version.release.getD 2 0]) ∧
    ∀ p q : Package, p.version.epoch = q.version.epoch → p.version ≤ q.version →
      ∃ m n, installerNumbers? p.installerVersion = some m ∧
        installerNumbers? q.installerVersion = some n ∧ m ≤ n := by
  have hnumbers (p : Package) : installerNumbers? p.installerVersion = some p.version.triple :=
    p.version.installerNumbers?_installerText
  refine ⟨fun p ↦ ?_, fun p q hepoch h ↦ ?_⟩
  · rw [hnumbers, Version.triple_eq_getD]
  · exact ⟨_, _, hnumbers p, hnumbers q, Version.triple_le hepoch h⟩

/-- A release with a post-release and a label, and a longer release after it. -/
def shortRelease : Package :=
  Product.package ⟨0, [1, 2], none, some 3, none, [.number 7]⟩ none

def longRelease : Package :=
  Product.package ⟨0, [1, 2, 0, 5], some (.alpha, 1), none, some 0, []⟩ none

theorem longRelease_not_lower : shortRelease.version.epoch = longRelease.version.epoch ∧
    shortRelease.version ≤ longRelease.version ∧
    ∃ m n, installerNumbers? shortRelease.installerVersion = some m ∧
      installerNumbers? longRelease.installerVersion = some n ∧ m ≤ n := by
  have hle : shortRelease.version ≤ longRelease.version := by
    change (compare shortRelease.version longRelease.version).isLE = true
    decide
  exact ⟨rfl, hle, installerVersion_mono.2 shortRelease longRelease rfl hle⟩

end Package

end WixAuthoring
