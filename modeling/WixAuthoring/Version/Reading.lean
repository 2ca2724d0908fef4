import WixAuthoring.Text.Blank
import WixAuthoring.Text.Digit
import WixAuthoring.Version.Basic

namespace WixAuthoring

/-!
# Reading a version

A version is written in one of many spellings: letters of either case, a leading v, separators that
may be left out, long and short words for the stages of a release. Reading is done in two steps. The
first one cuts the text into its parts and keeps the digits as they stand; the second one gives the
digits their values and refuses a number that is too long.
-/

inductive VersionError where
  /-- The text is spelled like no version. -/
  | malformed (text : String)
  /-- A number has more digits than are ever read. -/
  | numeralTooLong (digits : Nat)
  deriving DecidableEq, Repr

/-- The parts of a version as they are written. A number that is left out has no digits. -/
structure VersionSpelling where
  epoch : List Char
  release : List (List Char)
  pre : Option (PreKind × List Char)
  post : Option (List Char)
  dev : Option (List Char)
  label : List (List Char)
  deriving DecidableEq, Repr

namespace VersionSpelling

open Text

def takeDigits (s : List Char) : List Char := s.takeWhile isDigit

def dropDigits (s : List Char) : List Char := s.dropWhile isDigit

def isSeparator (c : Char) : Bool := c == '.' || c == '_' || c == '-'

def dropSeparator : List Char → List Char
  | [] => []
  | c :: s => if isSeparator c then s else c :: s

def dropMark : List Char → List Char
  | 'v' :: s => s
  | s => s

def scanEpoch (s : List Char) : List Char × List Char :=
  match dropDigits s with
  | '!' :: rest => if takeDigits s = [] then ([], s) else (takeDigits s, rest)
  | _ => ([], s)

/-- The further numbers of a release, each one after a dot. -/
def scanNumbers : (fuel : Nat) → List Char → List (List Char) × List Char
  | fuel + 1, '.' :: s =>
    if takeDigits s = [] then ([], '.' :: s)
    else
      let further := scanNumbers fuel (dropDigits s)
      (takeDigits s :: further.1, further.2)
  | _, s => ([], s)

def scanRelease (s : List Char) : Option (List (List Char) × List Char) :=
  if takeDigits s = [] then none
  else
    let further := scanNumbers s.length (dropDigits s)
    some (takeDigits s :: further.1, further.2)

def firstWord {α : Type} (words : List (String × α)) (s : List Char) : Option (α × List Char) :=
  words.findSome? fun (word, a) ↦ (after? word.toList s).map fun rest ↦ (a, rest)

/-- A word of a list with an optional separator on either side and an optional number after it. -/
def scanStage {α : Type} (words : List (String × α)) (s : List Char) :
    Option (α × List Char) × List Char :=
  match firstWord words (dropSeparator s) with
  | some (a, rest) =>
    (some (a, takeDigits (dropSeparator rest)), dropDigits (dropSeparator rest))
  | none => (none, s)

def preWords : List (String × PreKind) :=
  [("alpha", .alpha), ("a", .alpha), ("beta", .beta), ("b", .beta), ("preview", .candidate),
    ("pre", .candidate), ("c", .candidate), ("rc", .candidate)]

def postWords : List (String × Unit) := [("post", ()), ("rev", ()), ("r", ())]

def devWords : List (String × Unit) := [("dev", ())]

/-- A post-release is a hyphen with a number, or a word. -/
def scanPost (s : List Char) : Option (List Char) × List Char :=
  match s with
  | '-' :: rest =>
    if takeDigits rest = [] then ((scanStage postWords s).1.map Prod.snd, (scanStage postWords s).2)
    else (some (takeDigits rest), dropDigits rest)
  | _ => ((scanStage postWords s).1.map Prod.snd, (scanStage postWords s).2)

def isLabelPart (s : List Char) : Bool := s ≠ [] && s.all Char.isAlphanum

/-- The parts of a local label, which reaches to the end of the text. -/
def scanLabel : List Char → Option (List (List Char))
  | [] => some []
  | '+' :: s =>
    if (splitChars isSeparator s).all isLabelPart then some (splitChars isSeparator s) else none
  | _ => none

/-- The parts of a text in lower case without white space around it. -/
def scan (s : List Char) : Option VersionSpelling :=
  let epoch := scanEpoch (dropMark s)
  match scanRelease epoch.2 with
  | none => none
  | some (release, afterRelease) =>
    let pre := scanStage preWords afterRelease
    let post := scanPost pre.2
    let dev := scanStage devWords post.2
    (scanLabel dev.2).map fun label =>
      ⟨epoch.1, release, pre.1, post.1, dev.1.map Prod.snd, label⟩

def ofChars? (s : List Char) : Option VersionSpelling := scan ((trimBlanks s).map Char.toLower)

/-- A number has at most this many digits, leading zeros counted. -/
def longestNumeral : Nat := 4300

def readNumeral (digits : List Char) : Except VersionError Nat :=
  if digits.length ≤ longestNumeral then .ok (numeral digits)
  else .error (.numeralTooLong digits.length)

def readLabelPart (s : List Char) : Except VersionError LocalPart :=
  if s.all isDigit then .number <$> readNumeral s else .ok (.word (String.ofList s))

def read (s : VersionSpelling) : Except VersionError Version := do
  let epoch ← readNumeral s.epoch
  let release ← s.release.mapM readNumeral
  let pre ← s.pre.mapM fun (kind, digits) ↦ (kind, ·) <$> readNumeral digits
  let post ← s.post.mapM readNumeral
  let dev ← s.dev.mapM readNumeral
  let label ← s.label.mapM readLabelPart
  return ⟨epoch, release, pre, post, dev, label⟩

end VersionSpelling

namespace Version

/-- The version that a text spells. -/
def parse (s : String) : Except VersionError Version :=
  match VersionSpelling.ofChars? s.toList with
  | some spelling => spelling.read
  | none => .error (.malformed s)

end Version

end WixAuthoring
