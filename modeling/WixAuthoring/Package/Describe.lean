import WixAuthoring.Package.Entry
import WixAuthoring.Text.Quoted

namespace WixAuthoring

/-!
# Entries in diagnostics

An entry that is out of place is shown with all of its fields, each with its name, in a fixed order.
-/

namespace Describe

open Text

def boolean : Bool → String
  | true => "True"
  | false => "False"

def optional {α : Type} (describe : α → String) : Option α → String
  | none => "None"
  | some a => describe a

def record (kind : String) (fields : List (String × String)) : String :=
  kind ++ "(" ++ join ", " (fields.map fun (name, value) ↦ name ++ "=" ++ value) ++ ")"

def list (items : List String) : String := "[" ++ join ", " items ++ "]"

def attributes (a : Attributes) : String :=
  "\x7b" ++ join ", " (a.map fun (name, value) ↦ quote name ++ ": " ++ quote value) ++ "\x7d"

def choice (kind name value : String) : String := "<" ++ kind ++ "." ++ name ++ ": " ++ quote value ++ ">"

def feature (f : Feature) : String :=
  record "Feature"
    [("name", quote f.name), ("enabled", boolean f.enabled), ("allow_change", boolean f.allowChange),
     ("attributes", attributes f.attributes), ("description", quote f.description)]

def reference (table : FeatureRef → Feature) (f : Option FeatureRef) : String :=
  optional (fun f ↦ feature (table f)) f

def property (p : Property) : String :=
  record "Property" [("name", quote p.name), ("value", quote p.value)]

def file (table : FeatureRef → Feature) (f : PackagedFile) : String :=
  record "File"
    [("source", quote f.source), ("feature", reference table f.feature), ("name", optional quote f.name)]

def setProperty (s : SetProperty) : String :=
  record "SetProperty"
    [("name", quote s.name), ("value", quote s.value), ("sequence", quote s.sequence),
     ("after", quote s.after), ("condition", optional quote s.condition)]

def customAction (a : CustomAction) : String :=
  record "CustomAction"
    [("id", quote a.id), ("dll_entry", quote a.dllEntry), ("after", quote a.after),
     ("condition", quote a.condition), ("return_", quote a.onReturn),
     ("binary_key", quote a.binaryKey), ("execute", quote a.execute)]

def part (p : VariablePart) : String :=
  match p with
  | .first => choice "EnvVarPart" "FIRST" p.text
  | .last => choice "EnvVarPart" "LAST" p.text
  | .all => choice "EnvVarPart" "ALL" p.text

def action (a : VariableAction) : String :=
  match a with
  | .set => choice "EnvVarAction" "SET" a.text
  | .create => choice "EnvVarAction" "CREATE" a.text
  | .remove => choice "EnvVarAction" "REMOVE" a.text

def environmentVariable (table : FeatureRef → Feature) (v : EnvironmentVariable) : String :=
  record "EnvironmentVariable"
    [("feature", reference table v.feature), ("name", quote v.name), ("value", quote v.value),
     ("permanent", boolean v.permanent), ("part", part v.part), ("action", action v.action),
     ("system", boolean v.system), ("condition", optional quote v.condition)]

def scalar : Scalar → String
  | .none => "None"
  | .boolean b => boolean b
  | .integer n => toString n
  | .text s => quote s

mutual

def entry (table : FeatureRef → Feature) : Entry → String
  | .property p => property p
  | .file f => file table f
  | .directory name entries f id =>
    record "Dir"
      [("name", quote name), ("entries", list (all table entries)), ("feature", reference table f),
       ("id", optional quote id)]
  | .environment v => environmentVariable table v
  | .setProperty s => setProperty s
  | .customAction a => customAction a
  | .feature f => feature (table f)
  | .scalar v => scalar v

def all (table : FeatureRef → Feature) : List Entry → List String
  | [] => []
  | e :: rest => entry table e :: all table rest

end

end Describe

end WixAuthoring
