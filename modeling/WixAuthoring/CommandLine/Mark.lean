import WixAuthoring.CommandLine.Refusal
import WixAuthoring.Text.Digit
import WixAuthoring.Text.Line

namespace WixAuthoring.CommandLine

/-!
# Marks

Every argument is first marked by its looks. An option may be shortened as long as no other begins the
same way, and its value may follow an equals sign. A number with a hyphen is no option.
-/

open Text

/-- What is attached to an option within its argument. -/
inductive Attached where
  | nothing
  /-- What follows an equals sign. -/
  | value (s : List Char)
  /-- What follows the letter of a short option. -/
  | letters (s : List Char)
  deriving DecidableEq, Repr

inductive Mark where
  | option (flag : Flag) (attached : Attached)
  /-- An argument that looks like an option, but like none that is known. -/
  | unknown
  | argument
  /-- Two hyphens alone. All that follows them is arguments. -/
  | separator
  deriving DecidableEq, Repr

/-- The parts of an argument around its first equals sign. -/
def splitAtEquals : List Char → Option (List Char × List Char)
  | [] => none
  | c :: s =>
    if c = '=' then some ([], s) else (splitAtEquals s).map fun (name, value) ↦ (c :: name, value)

def known? (spellings : List (String × Flag)) (name : List Char) : Option Flag :=
  (spellings.find? fun (spelling, _) ↦ spelling.toList = name).map Prod.snd

/-- Holds of a hyphen with a number, whole or with a point, which is never taken for an option. -/
def isNegativeNumber : List Char → Bool
  | '-' :: s =>
    (s.takeWhile isScriptDigit ≠ [] && isEnd (s.dropWhile isScriptDigit)) ||
      match s.dropWhile isScriptDigit with
      | '.' :: s => s.takeWhile isScriptDigit ≠ [] && isEnd (s.dropWhile isScriptDigit)
      | _ => false
  | _ => false

/-- The options that an argument may be short for. -/
def candidates (spellings : List (String × Flag)) (argument : List Char) :
    List (String × Flag × Attached) :=
  match argument with
  | '-' :: '-' :: _ =>
    let (name, attached) :=
      match splitAtEquals argument with
      | some (name, value) => (name, Attached.value value)
      | none => (argument, .nothing)
    (spellings.filter fun (spelling, _) ↦ name.isPrefixOf spelling.toList).map
      fun (spelling, flag) ↦ (spelling, flag, attached)
  | '-' :: c :: letters =>
    (spellings.filter fun (spelling, _) ↦ spelling.toList = ['-', c]).map
      fun (spelling, flag) ↦ (spelling, flag, .letters letters)
  | _ => []

/-- The mark of an argument that begins with a hyphen and is no known option as it stands. -/
def markHyphened (topic : Topic) (argument : String) : Except Refusal Mark :=
  match candidates topic.spellings argument.toList with
  | [(_, flag, attached)] => .ok (.option flag attached)
  | [] =>
    if isNegativeNumber argument.toList || argument.toList.contains ' ' then .ok .argument
    else .ok .unknown
  | found => .error (.misuse topic (ambiguity argument (found.map Prod.fst)))

def mark (topic : Topic) (argument : String) : Except Refusal Mark :=
  match argument.toList with
  | [] => .ok .argument
  | ['-'] => .ok .argument
  | '-' :: _ =>
    match known? topic.spellings argument.toList with
    | some flag => .ok (.option flag .nothing)
    | none =>
      match splitAtEquals argument.toList with
      | some (name, value) =>
        match known? topic.spellings name with
        | some flag => .ok (.option flag (.value value))
        | none => markHyphened topic argument
      | none => markHyphened topic argument
  | _ => .ok .argument

def markAll (topic : Topic) : List String → Except Refusal (List (String × Mark))
  | [] => .ok []
  | argument :: rest => do
    if argument = "--" then
      return (argument, .separator) :: rest.map fun argument ↦ (argument, .argument)
    else
      let m ← mark topic argument
      let marks ← markAll topic rest
      return (argument, m) :: marks

end WixAuthoring.CommandLine
