import WixAuthoring.CommandLine.Reading
import WixAuthoring.Path

namespace WixAuthoring.CommandLine

/-!
# What is asked for

Options mean the same before and after the command, and the last one wins.
-/

open Text

/-- What the program is asked to do. -/
structure Options where
  command : Option Command := none
  manifest : Path := .parse "Cargo.toml"
  sourceRoot : Path := .current
  outDir : Path := .parse "target"
  wixBin : Option Path := none
  wxsOnly : Bool := false
  deriving DecidableEq, Repr

def Options.apply (o : Options) (s : Setting) : Options :=
  match s.flag with
  | .help => o
  | .manifest => { o with manifest := .parse s.value }
  | .sourceRoot => { o with sourceRoot := .parse s.value }
  | .outDir => { o with outDir := .parse s.value }
  | .wixBin => { o with wixBin := some (.parse s.value) }
  | .wxsOnly => { o with wxsOnly := true }

def Reading.options (r : Reading) : Options :=
  r.settings.foldl Options.apply { command := r.command }

/-- Reads a line. Arguments that are left over spoil it. -/
def parse (arguments : List String) : Except Refusal Options := do
  let reading ← readLine arguments
  if reading.extras = [] then return reading.options
  else .error (.misuse .program ("unrecognized arguments: " ++ join " " reading.extras))

end WixAuthoring.CommandLine
