import WixAuthoring.Version.Basic

namespace WixAuthoring

/-!
# The order of versions

Releases are compared number by number, and zeros at their end make no difference. A development release
comes before what it leads to, then the pre-releases, then the release, then its post-releases; a local
label comes last.
-/

instance : Ord LocalPart where
  compare
    | .word s, .word t => compare s t
    | .word _, .number _ => .lt
    | .number _, .word _ => .gt
    | .number m, .number n => compare m n

/-- A release without the zeros at its end. -/
def trimZeros (release : List Nat) : List Nat :=
  release.foldr (fun n rest ↦ if n = 0 ∧ rest = [] then [] else n :: rest) []

@[simp] theorem trimZeros_nil : trimZeros [] = [] := rfl

theorem trimZeros_cons (n : Nat) (release : List Nat) :
    trimZeros (n :: release) =
      if n = 0 ∧ trimZeros release = [] then [] else n :: trimZeros release := rfl

namespace Version

/-- How far along a release is: a mere development release, a pre-release of some kind, the release. -/
def stage (v : Version) : Nat × Nat :=
  match v.pre with
  | some (.alpha, n) => (1, n)
  | some (.beta, n) => (2, n)
  | some (.candidate, n) => (3, n)
  | none => if v.post = none ∧ v.dev ≠ none then (0, 0) else (4, 0)

/-- What orders versions of one release and one local label, number by number. -/
def qualifiers (v : Version) : List Nat :=
  [v.stage.1, v.stage.2, if v.post = none then 0 else 1, v.post.getD 0,
    if v.dev = none then 1 else 0, v.dev.getD 0]

/-- A version without a label comes before the same version with one. -/
instance : Ord Version where
  compare v w :=
    (compare v.epoch w.epoch).then <|
      (compare (trimZeros v.release) (trimZeros w.release)).then <|
        (compare v.qualifiers w.qualifiers).then (compare v.label w.label)

instance : LE Version := leOfOrd

end Version

end WixAuthoring
