import WixAuthoring.Store.Error
import WixAuthoring.Text.Split
import WixAuthoring.Version.Reading

namespace WixAuthoring

/-!
# Failures

Everything that can stop the program, by its cause. Mistakes in the configuration are told apart: they
are reported in one line, logged, and end the program with a code of its own.
-/

/-- A mistake in what the program was given to build. -/
inductive ConfigurationError where
  | versionNotFound (manifest : String)
  | invalidVersion (manifest token : String)
  | missingSource (path : String)
  | toolNotFound (tool : String)
  deriving DecidableEq, Repr

def ConfigurationError.message : ConfigurationError → String
  | .versionNotFound manifest => "No version line found in manifest: " ++ manifest
  | .invalidVersion manifest token =>
    "Invalid version " ++ Text.quote token ++ " in manifest: " ++ manifest
  | .missingSource path => "Source file not found: " ++ path
  | .toolNotFound tool =>
    "WiX tool '" ++ tool ++ "' not found. Install the WiX Toolset v3, " ++
      "set the WIX environment variable or pass --wix-bin."

def numeralLimit : String := "Exceeds the limit (4300 digits) for integer string conversion"

def numeralAdvice : String := "use sys.set_int_max_str_digits() to increase the limit"

def VersionError.message : VersionError → String
  | .malformed text => "Invalid version: " ++ Text.quote text
  | .numeralTooLong digits =>
    numeralLimit ++ ": value has " ++ toString digits ++ " digits; " ++ numeralAdvice

/-- What becomes of a command. -/
inductive Outcome where
  /-- It has been started and has ended. A negative status is the signal that ended it. -/
  | ended (status : Int)
  /-- The system could not start it, and gives the number and the text of its error. -/
  | notStarted (code : Nat) (reason : String)
  deriving DecidableEq, Repr

/-- Commands that are all started, by the statuses they end with. -/
instance : Coe (List Int) (List Outcome) := ⟨fun statuses ↦ statuses.map .ended⟩

inductive Failure where
  | configuration (e : ConfigurationError)
  | version (e : VersionError)
  | store (e : StoreError)
  | notWritten (path : String) (e : StoreError)
  | notAppended (path : String) (e : StoreError)
  /-- An entry that may not stand at the top of a package. -/
  | unsupportedEntry (shown : String)
  /-- An entry that may not stand in a directory. -/
  | unsupportedInDirectory (shown : String)
  | noInstallDirectory
  /-- An attribute name with a brace that is never closed. -/
  | unclosedNamespace
  /-- An integer that is too long to be written. -/
  | integerTooLong
  /-- A command that did not end with zero. -/
  | commandFailed (command : List String) (outcome : Outcome)
  deriving DecidableEq, Repr

/-- The signals of the system, by number. -/
def signalNames : List (Nat × String) :=
  [(1, "SIGHUP"), (2, "SIGINT"), (3, "SIGQUIT"), (4, "SIGILL"), (5, "SIGTRAP"), (6, "SIGABRT"),
   (7, "SIGBUS"), (8, "SIGFPE"), (9, "SIGKILL"), (10, "SIGUSR1"), (11, "SIGSEGV"), (12, "SIGUSR2"),
   (13, "SIGPIPE"), (14, "SIGALRM"), (15, "SIGTERM"), (16, "SIGSTKFLT"), (17, "SIGCHLD"),
   (18, "SIGCONT"), (19, "SIGSTOP"), (20, "SIGTSTP"), (21, "SIGTTIN"), (22, "SIGTTOU"), (23, "SIGURG"),
   (24, "SIGXCPU"), (25, "SIGXFSZ"), (26, "SIGVTALRM"), (27, "SIGPROF"), (28, "SIGWINCH"),
   (29, "SIGIO"), (30, "SIGPWR"), (31, "SIGSYS"), (34, "SIGRTMIN"), (64, "SIGRTMAX")]

def describeCommand (command : List String) : String :=
  "Command '[" ++ Text.join ", " (command.map Text.quote) ++ "]'"

/-- How a command ended. -/
def describeStatus (status : Int) : String :=
  if 0 ≤ status then "returned non-zero exit status " ++ toString status ++ "."
  else
    match signalNames.lookup status.natAbs with
    | some name => "died with <Signals." ++ name ++ ": " ++ toString status.natAbs ++ ">."
    | none => "died with unknown signal " ++ toString status.natAbs ++ "."

def Outcome.message (command : List String) : Outcome → String
  | .ended status => describeCommand command ++ " " ++ describeStatus status
  | .notStarted code reason => describeError code reason (command.headD "")

def Failure.message : Failure → String
  | .configuration e => e.message
  | .version e => e.message
  | .store e => e.message
  | .notWritten path e => "Failed to write to file " ++ path ++ ": " ++ e.message
  | .notAppended path e => "Failed to append to file " ++ path ++ ": " ++ e.message
  | .unsupportedEntry shown => "Unsupported project entry: " ++ shown
  | .unsupportedInDirectory shown => "Unsupported directory entry: " ++ shown
  | .noInstallDirectory => "Environment variables need an installation directory"
  | .unclosedNamespace => "not enough values to unpack (expected 2, got 1)"
  | .integerTooLong => numeralLimit ++ "; " ++ numeralAdvice
  | .commandFailed command outcome => outcome.message command

/-- A sequence of two steps succeeds when both do. -/
theorem bind_eq_ok_iff {α β : Type} {x : Except Failure α} {f : α → Except Failure β} {b : β} :
    x >>= f = .ok b ↔ ∃ a, x = .ok a ∧ f a = .ok b := by
  cases x with
  | error e => simp [bind, Except.bind]
  | ok a => simp [bind, Except.bind]

end WixAuthoring
