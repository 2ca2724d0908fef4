import WixAuthoring.Journal

namespace WixAuthoring

/-!
# Telling the windows

Programs that are running take up a new environment only when they are told. The message is best
effort: it is sent to all top-level windows, hung ones are passed over, and a failure is only logged.
-/

namespace Broadcast

inductive Argument where
  | number (n : Nat)
  | text (s : String)
  deriving DecidableEq, Repr

def library : String := "user32"

/-- To all windows, that a setting has changed, which one, passing over hung windows, within five
seconds. -/
def arguments : List Argument :=
  [.number 0xFFFF, .number 0x001A, .number 0, .text "Environment", .number 0x0002, .number 5000]

/-- What came of a message, whoever sent it: an answer or the text of an error. -/
def settle (outcome : Except String Int) : Effect Unit :=
  match outcome with
  | .ok _ => pure ()
  | .error text => Journal.error ("WM_SETTINGCHANGE broadcast failed: " ++ text)

/-- Sends the message to the windows of this machine. -/
def send : Effect (Except String Int) := do
  modify fun m ↦ { m with messages := m.messages + 1 }
  return (← get).answer

/-- Tells the windows of this machine, if it has any. -/
def announce : Effect Unit := do
  if (← get).onWindows then
    settle (← send)
  else
    Machine.print "Skipping WM_SETTINGCHANGE broadcast: not running on Windows."

end Broadcast

end WixAuthoring
