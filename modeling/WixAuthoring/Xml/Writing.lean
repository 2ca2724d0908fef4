import WixAuthoring.Text.Blank
import WixAuthoring.Xml.Names

namespace WixAuthoring.Xml

/-!
# Writing a document

Each element stands on a line of its own, two spaces further in than the element that holds it. Text
escapes the characters that are markup; an attribute also escapes its quote and whatever a reader
would take for a space.
-/

open Text

def escapeChar (c : Char) : List Char :=
  if c = '&' then "&amp;".toList
  else if c = '<' then "&lt;".toList
  else if c = '>' then "&gt;".toList
  else [c]

def escapeAttributeChar (c : Char) : List Char :=
  if c = '\x22' then "&quot;".toList
  else if c = '\r' then "&#13;".toList
  else if c = '\n' then "&#10;".toList
  else if c = '\t' then "&#09;".toList
  else escapeChar c

def escape (s : String) : List Char := s.toList.flatMap escapeChar

def escapeAttribute (s : String) : List Char := s.toList.flatMap escapeAttributeChar

def newLine (level : Nat) : List Char := '\n' :: List.replicate (2 * level) ' '

def writeAttribute (name value : String) : List Char :=
  ' ' :: name.toList ++ '=' :: '\x22' :: escapeAttribute value ++ ['\x22']

def writeAttributes (names : Names) (attributes : Attributes) : List Char :=
  attributes.flatMap fun (name, value) ↦ writeAttribute (names.spell name) value

/-- The short names that the root element declares, as attributes. -/
def writeDeclarations (names : Names) : List Char :=
  names.declarations.flatMap fun (space, short) ↦ writeAttribute ("xmlns:" ++ short) space

/-- What stands between a start tag and the first child. Blank text makes way for a new line. -/
def writeLead (level : Nat) (text : String) : List Char :=
  if isAllBlank text.toList then newLine level else escape text

mutual

/-- Writes an element. `declared` stands in front of its attributes. -/
def Element.write (names : Names) (declared : List Char) (level : Nat) : Element → List Char
  | .node name attributes text children =>
    let tag := (names.spell name).toList
    let start := '<' :: tag ++ declared ++ writeAttributes names attributes
    match children with
    | [] =>
      if text = "" then start ++ [' ', '/', '>']
      else start ++ '>' :: escape text ++ '<' :: '/' :: tag ++ ['>']
    | first :: rest =>
      start ++ '>' :: writeLead (level + 1) text ++ first.write names [] (level + 1) ++
        writeMore names (level + 1) rest ++ newLine level ++ '<' :: '/' :: tag ++ ['>']

/-- Writes the elements that follow another one. -/
def writeMore (names : Names) (level : Nat) : List Element → List Char
  | [] => []
  | e :: rest => newLine level ++ e.write names [] level ++ writeMore names level rest

end

def declaration : String := "<?xml version=\"1.0\" encoding=\"UTF-8\"?>\n"

/-- The text of a document, or nothing if a name in it cannot be written. -/
def document? (root : Element) : Option String :=
  (Names.ofElement? root).map fun names ↦
    declaration ++ String.ofList (root.write names (writeDeclarations names) 0) ++ "\n"

end WixAuthoring.Xml
