import Std.Time.DateTime
import WixAuthoring.Footprint
import WixAuthoring.Store.Change

/-!
# Running the program

A picture of the machine is taken, the run is worked out on it, and what the run has changed and
printed is carried over to the machine. No other program can be started from here, so what becomes of
a command is what becomes of one that is not found.
-/

namespace WixAuthoring.Runner

open CommandLine

def asBytes (content : ByteArray) : List UInt8 := content.toList

/-- What is at a location. The content of a file is read only where it is wanted. -/
def observe (wanted : List Location) (place : Location) : IO (Option StoreObject) := do
  let path := (← IO.currentDir) / place.text
  if ← path.isDir then return some .directory
  else if ← path.pathExists then
    let content ← if wanted.contains place then asBytes <$> IO.FS.readBinFile path else pure []
    return some (.file content true)
  else return none

def picture (wanted places : List Location) : IO Store :=
  places.foldlM
    (fun s place ↦ do
      match ← observe wanted place with
      | some object => return s.put place object
      | none => return s)
    {}

def readClock : IO Moment := do
  let now ← Std.Time.Timestamp.now
  let t := Std.Time.PlainDateTime.ofWallTime
    (Std.Time.WallTime.ofNanoseconds now.toNanosecondsSinceUnixEpoch)
  return {
    year := t.date.year.toInt.toNat
    month := t.date.month.toNat
    day := t.date.day.toNat
    hour := t.time.hour.toNat
    minute := t.time.minute.toNat
    second := t.time.second.toNat
    microsecond := t.time.nanosecond.toNat / 1000 }

def unknownCommand : Outcome := .notStarted StoreFault.notFound.code StoreFault.notFound.text

def readMachine (arguments : List String) : IO Machine := do
  let here := Path.names Path.isSlash (← IO.currentDir).toString
  let environment : Variables :=
    { wix := ← IO.getEnv "WIX", localAppData := ← IO.getEnv "LOCALAPPDATA",
      searchPath := ← IO.getEnv "PATH" }
  let onWindows := (← IO.getEnv "OS") == some "Windows_NT"
  let options := (CommandLine.parse arguments).toOption.getD {}
  let wanted := Footprint.locations here (Footprint.contents environment options)
  let asked := Footprint.locations here (Footprint.presence onWindows environment options)
  return {
    store := ← picture wanted (Footprint.ancestry here ++ wanted ++ asked)
    here
    environment
    now := ← readClock
    onWindows
    statuses := [unknownCommand]
    answer := .error "the windows cannot be reached from here" }

/-- Carries a change over. The paths of changes begin below the root. -/
def carryOver : StoreChange → IO Unit
  | .file path content => IO.FS.writeBinFile ("/" ++ path) ⟨content.toArray⟩
  | .directory path => IO.FS.createDirAll ("/" ++ path)
  | _ => pure ()

def exitCode : Program.Ending → IO UInt32
  | .code n => return UInt32.ofNat (n % 256).toNat
  | .refused r => return UInt32.ofNat r.exitCode
  | .failed e => do
    IO.eprintln e.message
    return 1

def run (arguments : List String) : IO UInt32 := do
  let before ← readMachine arguments
  let (ending, after) := (Program.run arguments).run before
  (before.store.changes after.store []).forM carryOver
  IO.print after.printed
  IO.eprint after.reported
  exitCode ending

end WixAuthoring.Runner

def main (arguments : List String) : IO UInt32 := WixAuthoring.Runner.run arguments
