import WixAuthoring.Json.Writing
import WixAuthoring.Machine

namespace WixAuthoring

/-!
# The journal

The last build is recorded in one file and errors are added to another. Keeping the journal never
fails: what goes wrong is printed.
-/

namespace Journal

def directory (v : Variables) : Path :=
  ((Path.parse (v.localAppData.getD ".")).child "Octobuild").child "logs"

def recordPath (v : Variables) : Path := (directory v).child "last_build.json"

def errorPath (v : Variables) : Path := (directory v).child "errors.log"

/-- A number with leading zeros. -/
def padded (width n : Nat) : String :=
  String.ofList (List.leftpad width '0' (toString n).toList)

def dayText (t : Moment) : String := padded 2 t.month ++ "-" ++ padded 2 t.day

def timeText (t : Moment) : String :=
  padded 2 t.hour ++ ":" ++ padded 2 t.minute ++ ":" ++ padded 2 t.second

/-- Date and time with a space between. The year has no leading zeros. -/
def stamp (t : Moment) : String := toString t.year ++ "-" ++ dayText t ++ " " ++ timeText t

/-- Date and time with an offset. The year has four digits; a fraction of a second is shown if there is
one. -/
def zonedStamp (t : Moment) : String :=
  padded 4 t.year ++ "-" ++ dayText t ++ "T" ++ timeText t ++
    (if t.microsecond = 0 then "" else "." ++ padded 6 t.microsecond) ++ "+00:00"

/-- Does something, and prints why it failed. -/
def attempt {α : Type} (trouble : String) (job : Job α) : Effect Unit := do
  match ← job.run with
  | .ok _ => pure ()
  | .error e => Machine.print (trouble ++ ": " ++ e.message)

def writeRecord (value : Json.Value) : Job Path := do
  let v := (← get).environment
  if value.isWritable then Machine.save (recordPath v) value.toText else throw .integerTooLong

/-- Replaces the record of the last build. -/
def record (value : Json.Value) : Effect Unit :=
  attempt "Failed to log event" (writeRecord value)

def errorLine (t : Moment) (message : String) : String :=
  "[" ++ stamp t ++ "] ERROR: " ++ message ++ "\n"

def writeError (message : String) : Job Unit := do
  let m ← get
  Machine.extend (errorPath m.environment) (errorLine m.now message)

/-- Adds an error. -/
def error (message : String) : Effect Unit :=
  attempt "Failed to log error" (writeError message)

end Journal

end WixAuthoring
