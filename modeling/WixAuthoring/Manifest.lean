import WixAuthoring.Failure
import WixAuthoring.Text.Line
import WixAuthoring.Text.Utf8
import WixAuthoring.Version.Token

namespace WixAuthoring

/-!
# Manifests

The version of a product is read from its manifest: the first line that assigns a quoted value to the
word version. The value reaches to the last quote before white space. A manifest may begin with a byte
order mark and may hold bytes that are no text.
-/

namespace Manifest

open Text

/-- What stands before the last quote of a text. -/
def beforeLastQuote : List Char → Option (List Char)
  | [] => none
  | c :: s =>
    match beforeLastQuote s with
    | some before => some (c :: before)
    | none => if c = '\x22' then some [] else none

/-- The value of a quoted text whose opening quote has been read. It is not empty. -/
def quotedValue (s : List Char) : Option (List Char) :=
  (beforeLastQuote (s.takeWhile fun c ↦ !isBlank c)).filter (· ≠ [])

/-- The value that a line assigns to the version. -/
def versionOfLine (line : List Char) : Option (List Char) := do
  let s ← after? "version".toList (dropBlanks line)
  let s ← after? ['='] (dropBlanks s)
  let s ← after? ['\x22'] (dropBlanks s)
  quotedValue s

def versionOfChars (s : List Char) : Option (List Char) := (lines s).findSome? versionOfLine

/-- The version token of a manifest with the given content. -/
def versionToken (content : List UInt8) : Option String :=
  (versionOfChars (Utf8.decodeLossy (Utf8.withoutMark content))).map String.ofList

/-- The version that a token stands for. A token with a qualifier of another scheme stands for its
release number. -/
def tokenVersion (manifest token : String) : Except Failure Version :=
  match Version.parse token with
  | .ok version => .ok version
  | .error (.numeralTooLong digits) => .error (.version (.numeralTooLong digits))
  | .error (.malformed _) =>
    match VersionToken.release? token with
    | none => .error (.configuration (.invalidVersion manifest token))
    | some release => (Version.parse release).mapError .version

def requireVersion (manifest : String) : Option String → Except Failure Version
  | none => .error (.configuration (.versionNotFound manifest))
  | some token => tokenVersion manifest token

end Manifest

end WixAuthoring
