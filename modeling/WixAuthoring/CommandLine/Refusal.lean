import WixAuthoring.CommandLine.Flag
import WixAuthoring.Text.Quoted
import WixAuthoring.Text.Split

namespace WixAuthoring.CommandLine

/-!
# Refusals

A line that is not carried out shows help, or tells what is wrong with it.
-/

open Text

/-- Why a line is not carried out. -/
inductive Refusal where
  /-- Help is asked for. -/
  | help (topic : Topic)
  | misuse (topic : Topic) (message : String)
  deriving DecidableEq, Repr

def ambiguity (argument : String) (found : List String) : String :=
  "ambiguous option: " ++ argument ++ " could match " ++ join ", " found

def misuseOf (topic : Topic) (flag : Flag) (message : String) : Refusal :=
  .misuse topic ("argument " ++ flag.title ++ ": " ++ message)

def ignored (topic : Topic) (flag : Flag) (s : List Char) : Refusal :=
  misuseOf topic flag ("ignored explicit argument " ++ quote (String.ofList s))

def choices : String := join ", " (commands.map fun c ↦ quote c.name)

def noSuchCommand (name : String) : Refusal :=
  .misuse .program
    ("argument command: invalid choice: " ++ quote name ++ " (choose from " ++ choices ++ ")")

end WixAuthoring.CommandLine
