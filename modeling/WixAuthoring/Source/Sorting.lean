import WixAuthoring.Failure
import WixAuthoring.Package.Basic
import WixAuthoring.Package.Describe

namespace WixAuthoring.Source

/-!
# Sorting

The entries at the top of a package are read once, in order, and each is put behind those of its kind
that came before it.
-/

/-- The entries that have been read so far, by kind. -/
structure Sorted where
  properties : List Property := []
  directories : List Entry := []
  environment : List EnvironmentVariable := []
  setProperties : List SetProperty := []
  actions : List CustomAction := []
  deriving Repr

/-- Reads one more entry. Some kinds may not stand at the top. -/
def Sorted.add (p : Package) (sorted : Sorted) : Entry → Except Failure Sorted
  | .property e => .ok { sorted with properties := sorted.properties ++ [e] }
  | .directory name inner own id =>
    .ok { sorted with directories := sorted.directories ++ [.directory name inner own id] }
  | .environment v => .ok { sorted with environment := sorted.environment ++ [v] }
  | .setProperty e => .ok { sorted with setProperties := sorted.setProperties ++ [e] }
  | .customAction e => .ok { sorted with actions := sorted.actions ++ [e] }
  | other => .error (.unsupportedEntry (Describe.entry p.feature other))

def sortEntries (p : Package) : Except Failure Sorted := p.entries.foldlM (Sorted.add p) {}

end WixAuthoring.Source
