import WixAuthoring.Text.Line
import WixAuthoring.Version.Reading

namespace WixAuthoring

/-!
# Version tokens

A manifest may give a version that is spelled for another scheme, with words of its own after a hyphen
or a plus sign. Of such a token the release number in front is read and the rest passed over.
-/

namespace VersionToken

open Text

def takeNumber (s : List Char) : List Char := s.takeWhile isScriptDigit

def dropNumber (s : List Char) : List Char := s.dropWhile isScriptDigit

/-- The further numbers of a release with the dots before them, and what follows. -/
def takeFurther : (fuel : Nat) → List Char → List Char × List Char
  | fuel + 1, '.' :: s =>
    if takeNumber s = [] then ([], '.' :: s)
    else
      let further := takeFurther fuel (dropNumber s)
      ('.' :: takeNumber s ++ further.1, further.2)
  | _, s => ([], s)

def isQualifier : List Char → Bool
  | [] => false
  | c :: s => (c == '-' || c == '+') && isEnd (s.dropWhile fun c ↦ !isBlank c)

/-- The release number that a token begins with, if nothing but a qualifier follows it. -/
def releaseChars? (s : List Char) : Option (List Char) :=
  let further := takeFurther s.length (dropNumber s)
  if takeNumber s = [] then none
  else if isEnd further.2 || isQualifier further.2 then some (takeNumber s ++ further.1)
  else none

def release? (token : String) : Option String := (releaseChars? token.toList).map String.ofList

end VersionToken

end WixAuthoring
