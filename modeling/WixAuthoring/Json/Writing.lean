import WixAuthoring.Json.Value
import WixAuthoring.Text.Quoted

namespace WixAuthoring.Json

/-!
# Writing JSON

Each item and each field stands on a line of its own, two spaces further in than the list or object
that holds it. Only what JSON demands is escaped; all other characters stand for themselves.
-/

open Text

def escapeChar (c : Char) : List Char :=
  if c = doubleQuote || c = backslash then [backslash, c]
  else if c = '\n' then [backslash, 'n']
  else if c = '\r' then [backslash, 'r']
  else if c = '\t' then [backslash, 't']
  else if c.toNat = 8 then [backslash, 'b']
  else if c.toNat = 12 then [backslash, 'f']
  else if c.toNat < 32 then backslash :: 'u' :: hexadecimal 4 c.toNat
  else [c]

def writeText (s : List Char) : List Char := doubleQuote :: s.flatMap escapeChar ++ [doubleQuote]

def writeInteger (n : Int) : List Char := (toString n).toList

def newLine (level : Nat) : List Char := '\n' :: List.replicate (2 * level) ' '

/-- The written items between two brackets, on lines of their own. -/
def bracket (first last : Char) (level : Nat) : List (List Char) → List Char
  | [] => [first, last]
  | item :: items =>
    first :: newLine (level + 1) ++ item ++
      items.flatMap (fun item ↦ ',' :: newLine (level + 1) ++ item) ++ newLine level ++ [last]

mutual

def Value.write (level : Nat) : Value → List Char
  | .null => "null".toList
  | .boolean true => "true".toList
  | .boolean false => "false".toList
  | .integer n => writeInteger n
  | .text s => writeText s.toList
  | .list items => bracket '[' ']' level (writeItems (level + 1) items)
  | .object fields => bracket '\x7b' '\x7d' level (writeFields (level + 1) fields)

def writeItems (level : Nat) : List Value → List (List Char)
  | [] => []
  | value :: items => value.write level :: writeItems level items

def writeFields (level : Nat) : List (String × Value) → List (List Char)
  | [] => []
  | (key, value) :: fields =>
    (writeText key.toList ++ ':' :: ' ' :: value.write level) :: writeFields level fields

end

def Value.toText (value : Value) : String := String.ofList (value.write 0)

end WixAuthoring.Json
