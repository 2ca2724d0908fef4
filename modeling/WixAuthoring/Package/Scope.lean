import WixAuthoring.Package.Basic

namespace WixAuthoring

/-!
# Install scopes

A package is installed for the whole machine or for one user, and a variable must be set in the one or
the other place. Every variable is therefore declared twice, once for each scope, and a condition lets
only one of the two declarations take effect.
-/

namespace EnvironmentVariable

def machineCondition : String := "ALLUSERS"

def userCondition : String := "NOT ALLUSERS"

def forMachine (v : EnvironmentVariable) : EnvironmentVariable :=
  { v with system := true, condition := some machineCondition }

def forUser (v : EnvironmentVariable) : EnvironmentVariable :=
  { v with system := false, condition := some userCondition }

def expand (v : EnvironmentVariable) : List EnvironmentVariable := [v.forMachine, v.forUser]

def expandAll (vs : List EnvironmentVariable) : List EnvironmentVariable := vs.flatMap expand

@[simp] theorem expandAll_nil : expandAll [] = [] := rfl

@[simp] theorem expandAll_append (vs ws : List EnvironmentVariable) :
    expandAll (vs ++ ws) = expandAll vs ++ expandAll ws := by
  simp [expandAll]

end EnvironmentVariable

namespace Package

/-- The variables of a package, in order. -/
def environment (p : Package) : List EnvironmentVariable := p.entries.filterMap Entry.environment?

/-- Moves the variables to the end, each one declared for both scopes. -/
def expandVariables (p : Package) : Package :=
  { p with
    entries := p.entries.filter (fun e ↦ e.environment?.isNone) ++
      (EnvironmentVariable.expandAll p.environment).map .environment }

end Package

end WixAuthoring
