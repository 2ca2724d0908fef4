import WixAuthoring.Attributes
import WixAuthoring.Identifier
import WixAuthoring.Text.Given
import WixAuthoring.Text.Split

namespace WixAuthoring

/-!
# What a package is made of

The entries of a package: files in directories, properties, environment variables and actions. An entry
refers to a feature by its place in the feature table of the package, so two features that look alike
stay two features.
-/

structure Feature where
  name : String
  enabled : Bool := true
  allowChange : Bool := true
  attributes : Attributes := []
  description : String := ""
  deriving DecidableEq, Repr

def Feature.id (f : Feature) : String := identifier f.name

def Feature.level (f : Feature) : Nat := if f.enabled then 1 else 2

/-- The place of a feature in the feature table. -/
abbrev FeatureRef := Nat

/-- A file that is copied from its source into the directory that holds the entry. -/
structure PackagedFile where
  source : String
  feature : Option FeatureRef := none
  name : Option String := none
  deriving DecidableEq, Repr

/-- The part of a source after its last separator. -/
def lastPart (source : String) : String :=
  (Text.split (fun c ↦ c == '/' || c == '\\') source).getLastD ""

def PackagedFile.installName (f : PackagedFile) : String := (given f.name).getD (lastPart f.source)

structure Property where
  name : String
  value : String
  deriving DecidableEq, Repr

/-- An action that assigns a property in one of the two sequences of an installation. -/
structure SetProperty where
  name : String
  value : String
  sequence : String
  after : String
  condition : Option String := none
  deriving DecidableEq, Repr

def SetProperty.actionId (s : SetProperty) : String := "Set" ++ s.name ++ "_" ++ s.sequence

/-- An action of a library that is run in the execute sequence. -/
structure CustomAction where
  id : String
  dllEntry : String
  after : String
  condition : String := "1"
  onReturn : String := "ignore"
  binaryKey : String := "WixCA"
  execute : String := "immediate"
  deriving DecidableEq, Repr

/-- Where a value goes in a variable that holds a list. -/
inductive VariablePart where
  | first
  | last
  | all
  deriving DecidableEq, Repr

def VariablePart.text : VariablePart → String
  | .first => "first"
  | .last => "last"
  | .all => "all"

def VariablePart.ofText? : String → Option VariablePart
  | "first" => some .first
  | "last" => some .last
  | "all" => some .all
  | _ => none

/-- What the installer does with a variable. -/
inductive VariableAction where
  | set
  | create
  | remove
  deriving DecidableEq, Repr

def VariableAction.text : VariableAction → String
  | .set => "set"
  | .create => "create"
  | .remove => "remove"

def VariableAction.ofText? : String → Option VariableAction
  | "set" => some .set
  | "create" => some .create
  | "remove" => some .remove
  | _ => none

/-- An environment variable, for the whole machine or for the user who installs. -/
structure EnvironmentVariable where
  feature : Option FeatureRef
  name : String
  value : String
  permanent : Bool := false
  part : VariablePart := .all
  action : VariableAction := .set
  system : Bool := false
  condition : Option String := none
  deriving DecidableEq, Repr

/-- A bare value that has strayed into a list of entries. -/
inductive Scalar where
  | none
  | boolean (b : Bool)
  | integer (n : Int)
  | text (s : String)
  deriving DecidableEq, Repr

inductive Entry where
  | property (p : Property)
  | file (f : PackagedFile)
  | directory (name : String) (entries : List Entry) (feature : Option FeatureRef) (id : Option String)
  | environment (v : EnvironmentVariable)
  | setProperty (s : SetProperty)
  | customAction (a : CustomAction)
  | feature (f : FeatureRef)
  | scalar (v : Scalar)
  deriving Repr

namespace Entry

def environment? : Entry → Option EnvironmentVariable
  | .environment v => some v
  | _ => none

mutual

/-- The features that an entry mentions, depth first and with repetitions. -/
def mentions : Entry → List FeatureRef
  | .file f => f.feature.toList
  | .directory _ entries own _ => own.toList ++ allMentions entries
  | .environment v => v.feature.toList
  | .feature f => [f]
  | _ => []

def allMentions : List Entry → List FeatureRef
  | [] => []
  | e :: rest => e.mentions ++ allMentions rest

end

end Entry

/-- Each item at its first place only. -/
def firsts {α : Type} [DecidableEq α] : List α → List α
  | [] => []
  | a :: rest => a :: (firsts rest).filter (· ≠ a)

@[simp] theorem mem_firsts {α : Type} [DecidableEq α] {a : α} {l : List α} : a ∈ firsts l ↔ a ∈ l := by
  induction l with
  | nil => simp [firsts]
  | cons b l ih =>
    by_cases h : a = b <;> simp [firsts, ih, h]

theorem nodup_firsts {α : Type} [DecidableEq α] (l : List α) : (firsts l).Nodup := by
  induction l with
  | nil => simp [firsts]
  | cons a l ih =>
    rw [firsts, List.nodup_cons]
    exact ⟨by simp, ih.filter _⟩

end WixAuthoring
