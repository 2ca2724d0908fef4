import WixAuthoring.CommandLine.Mark

namespace WixAuthoring.CommandLine

/-!
# Reading a line

A line is options, then perhaps a command with options of its own. Arguments that fit nowhere are kept
apart.
-/

open Text

/-- An option that is set, with its value. Options without a value have the empty one. -/
structure Setting where
  flag : Flag
  value : String
  deriving DecidableEq, Repr

/-- What a list of arguments says. -/
structure Reading where
  settings : List Setting := []
  extras : List String := []
  command : Option Command := none
  deriving DecidableEq, Repr

def Reading.set (r : Reading) (flag : Flag) (value : String) : Reading :=
  { r with settings := ⟨flag, value⟩ :: r.settings }

def Reading.pass (r : Reading) (argument : String) : Reading :=
  { r with extras := argument :: r.extras }

/-- What becomes of letters after the short option for help. More of the same are let pass. -/
def helpLetters (topic : Topic) : List Char → Refusal
  | ['h'] => .help topic
  | 'h' :: '=' :: s => ignored topic .help s
  | 'h' :: s => helpLetters topic s
  | '-' :: s => ignored topic .help ('-' :: s)
  | _ => .help topic

def readHelp (topic : Topic) : Attached → Refusal
  | .nothing => .help topic
  | .value s => ignored topic .help s
  | .letters s => helpLetters topic s

/-- Reads marked arguments. `enter` reads those from the first one that is no option, if a command is
expected there. -/
def read (topic : Topic) (enter : Option (String → List String → Except Refusal Reading)) :
    List (String × Mark) → Except Refusal Reading
  | [] => .ok {}
  | (argument, .unknown) :: rest => do
    return (← read topic enter rest).pass argument
  | (argument, .argument) :: rest =>
    match enter with
    | some enter => enter argument (rest.map Prod.fst)
    | none => do return (← read topic none rest).pass argument
  | (argument, .separator) :: rest =>
    match enter, rest with
    | some enter, next :: rest => enter argument (next.1 :: rest.map Prod.fst)
    | _, _ => do return (← read topic none rest).pass argument
  | (_, .option .help attached) :: _ => .error (readHelp topic attached)
  | (_, .option .wxsOnly attached) :: rest =>
    match attached with
    | .nothing => do return (← read topic enter rest).set .wxsOnly ""
    | .value s => .error (ignored topic .wxsOnly s)
    | .letters s => .error (ignored topic .wxsOnly s)
  | (_, .option flag attached) :: rest =>
    match attached, rest with
    | .value s, rest => do return (← read topic enter rest).set flag (String.ofList s)
    | .letters s, rest => do return (← read topic enter rest).set flag (String.ofList s)
    | .nothing, (value, .argument) :: rest => do return (← read topic enter rest).set flag value
    | .nothing, _ => .error (misuseOf topic flag "expected one argument")

/-- Reads a command and the arguments behind it. -/
def readCommand (name : String) (arguments : List String) : Except Refusal Reading := do
  match Command.ofName? name with
  | none => .error (noSuchCommand name)
  | some c =>
    let marks ← markAll (.command c) arguments
    return { (← read (.command c) none marks) with command := some c }

def readLine (arguments : List String) : Except Refusal Reading := do
  let marks ← markAll .program arguments
  read .program (some readCommand) marks

end WixAuthoring.CommandLine
