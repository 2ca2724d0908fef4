import WixAuthoring.Text.Digit
import WixAuthoring.Text.Split

namespace WixAuthoring

/-!
# Semantic versions

Versions of another scheme: three numbers, then perhaps the parts of a pre-release after a hyphen and
the parts of a build after a plus sign. A part is made of letters, digits and hyphens; a part of a
pre-release that is all digits has no zero in front.
-/

namespace SemanticVersion

open Text

def isPartChar (c : Char) : Bool := c.isAlphanum || c == '-'

def IsPart (s : List Char) : Prop := s ≠ [] ∧ ∀ c ∈ s, isPartChar c = true

def IsPreReleasePart (s : List Char) : Prop :=
  IsPart s ∧ (s.all isDigit = true → s.head? = some '0' → s = ['0'])

end SemanticVersion

structure SemanticVersion where
  major : Nat
  minor : Nat
  patch : Nat
  preRelease : List (List Char)
  build : List (List Char)
  legal_preRelease : ∀ part ∈ preRelease, SemanticVersion.IsPreReleasePart part
  legal_build : ∀ part ∈ build, SemanticVersion.IsPart part

namespace SemanticVersion

def release (v : SemanticVersion) : List Nat := [v.major, v.minor, v.patch]

/-- Some parts with dots between them, after a mark. Without parts there is no mark. -/
def qualifier (mark : String) (parts : List (List Char)) : String :=
  if parts = [] then "" else mark ++ Text.join "." (parts.map String.ofList)

/-- The one spelling of a semantic version. -/
def text (v : SemanticVersion) : String :=
  Text.join "." (v.release.map toString) ++ qualifier "-" v.preRelease ++ qualifier "+" v.build

@[simp] theorem qualifier_nil (mark : String) : qualifier mark [] = "" := rfl

theorem qualifier_of_ne_nil (mark : String) {parts : List (List Char)} (h : parts ≠ []) :
    qualifier mark parts = mark ++ Text.join "." (parts.map String.ofList) := by
  simp [qualifier, h]

end SemanticVersion

end WixAuthoring
