import WixAuthoring.Failure
import WixAuthoring.Store.Disk

namespace WixAuthoring

/-!
# The machine

All that a run of the program can see and change: the files, the variables of the environment, the
clock, what becomes of the commands it starts, and what it has printed and started so far. A job gives a
value or a failure and leaves a machine in either case.
-/

/-- A moment of universal time. -/
structure Moment where
  year : Nat
  month : Nat
  day : Nat
  hour : Nat
  minute : Nat
  second : Nat
  microsecond : Nat
  deriving DecidableEq, Repr

/-- The variables of the environment that the program asks for. -/
structure Variables where
  wix : Option String := none
  localAppData : Option String := none
  searchPath : Option String := none
  deriving DecidableEq, Repr

structure Machine where
  store : Store
  here : Location
  environment : Variables
  now : Moment
  onWindows : Bool
  /-- What becomes of the next commands. Those after them end with zero. -/
  statuses : List Outcome := []
  /-- What the windows answer to a message, or why it cannot be sent. -/
  answer : Except String Int := .ok 1
  printed : String := ""
  reported : String := ""
  /-- The commands that the system has been asked to start. -/
  commands : List (List String) := []
  /-- How many messages have been sent to the windows. -/
  messages : Nat := 0

/-- What changes a machine and cannot fail. -/
abbrev Effect (α : Type) := StateM Machine α

abbrev Job (α : Type) := ExceptT Failure Effect α

/-- A result that has already been decided, as a job. -/
def Job.ofExcept {α : Type} (e : Except Failure α) : Job α := fun m ↦ (e, m)

namespace Machine

def print (line : String) : Effect Unit :=
  modify fun m ↦ { m with printed := m.printed ++ line ++ "\n" }

/-- Does something on the files of the machine. -/
def onDisk {α : Type} (asFailure : StoreError → Failure) (action : Disk α) : Job α := fun m ↦
  let (result, store) := action m.store
  (result.mapError asFailure, { m with store })

def writeFailure (p : Path) : StoreError → Failure
  | .embeddedNull => .store .embeddedNull
  | e => .notWritten p.text e

def appendFailure (p : Path) : StoreError → Failure
  | .embeddedNull => .store .embeddedNull
  | e => .notAppended p.text e

def save (p : Path) (text : String) : Job Path := do
  let here := (← get).here
  onDisk (writeFailure p) (Disk.write here p (Utf8.encode text))
  return p

def extend (p : Path) (text : String) : Job Unit := do
  let here := (← get).here
  onDisk (appendFailure p) (Disk.append here p (Utf8.encode text))

def load (path : String) : Job (List UInt8) := do
  let m ← get
  Job.ofExcept ((m.store.read m.here path).mapError .store)

/-- Starts a command and waits for it. It fails when it cannot be started or does not end with zero. -/
def run (command : List String) : Job Unit := do
  print ("+ " ++ Text.join " " command)
  let outcome := (← get).statuses.headD (.ended 0)
  modify fun m ↦ { m with commands := m.commands ++ [command], statuses := m.statuses.tail }
  if outcome = .ended 0 then pure () else throw (.commandFailed command outcome)

end Machine

end WixAuthoring
