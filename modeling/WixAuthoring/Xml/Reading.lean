import WixAuthoring.Text.Digit
import WixAuthoring.Text.Hexadecimal
import WixAuthoring.Text.Split
import WixAuthoring.Xml.Character
import WixAuthoring.Xml.Element

namespace WixAuthoring.Xml

/-!
# Reading a document

A document is read as the recommendation lays down: line ends become line feeds, references become
characters, space in attributes becomes blanks, and names with a short name are expanded. Documents with
a type declaration, with comments, sections or instructions are not read.
-/

open Text

/-- What an element holds. -/
inductive Node where
  | element (name : String) (attributes : Attributes) (content : List Node)
  | text (s : String)
  deriving Repr

/-- The text with a line feed for each line end. -/
def lineEnds : List Char → List Char
  | [] => []
  | '\r' :: '\n' :: s => '\n' :: lineEnds s
  | '\r' :: s => '\n' :: lineEnds s
  | c :: s => c :: lineEnds s

def skipSpace (s : List Char) : List Char := s.dropWhile isSpace

/-- The character with a number, if a document may hold it. -/
def numbered? (n : Nat) : Option Char :=
  if (Char.ofNat n).toNat = n && isCharacter (Char.ofNat n) then some (Char.ofNat n) else none

/-- The characters that can be written by a word. -/
def entities : List (String × Char) :=
  [("amp", '&'), ("lt", '<'), ("gt", '>'), ("quot", '\x22'), ("apos", Char.ofNat 39)]

/-- The character that stands between the ampersand and the semicolon of a reference. -/
def reference? : List Char → Option Char
  | '#' :: 'x' :: digits =>
    if digits = [] then none else (hexNumeral? digits).bind numbered?
  | '#' :: digits =>
    if digits = [] || !digits.all isDigit then none else numbered? (numeral digits)
  | name => (entities.find? fun (word, _) ↦ word.toList = name).map Prod.snd

/-- Reads the rest of an attribute value, up to its closing quote. The letters of a reference that is
under way are kept, the last one first. -/
def readValue (quote : Char) : (reference : Option (List Char)) → List Char →
    Option (List Char × List Char)
  | _, [] => none
  | some name, c :: s =>
    if c = ';' then do
      let c ← reference? name.reverse
      let (value, rest) ← readValue quote none s
      return (c :: value, rest)
    else readValue quote (some (c :: name)) s
  | none, c :: s =>
    if c = quote then some ([], s)
    else if c = '&' then readValue quote (some []) s
    else if c = '<' || !isCharacter c then none
    else do
      let (value, rest) ← readValue quote none s
      return ((if isSpace c then ' ' else c) :: value, rest)

/-- Reads character data, up to the next tag or the end. -/
def readData : (reference : Option (List Char)) → List Char → Option (List Char × List Char)
  | none, [] => some ([], [])
  | some _, [] => none
  | some name, c :: s =>
    if c = ';' then do
      let c ← reference? name.reverse
      let (data, rest) ← readData none s
      return (c :: data, rest)
    else readData (some (c :: name)) s
  | none, c :: s =>
    if c = '<' then some ([], c :: s)
    else if c = '&' then readData (some []) s
    else if !isCharacter c || (after? [']', ']', '>'] (c :: s)).isSome then none
    else do
      let (data, rest) ← readData none s
      return (c :: data, rest)

/-- Reads a name. -/
def readName (s : List Char) : Option (String × List Char) :=
  let name := s.takeWhile isNameRest
  if isName name then some (String.ofList name, s.dropWhile isNameRest) else none

/-- Reads an equals sign and a value between quotes of one kind. -/
def readAssignment (s : List Char) : Option (String × List Char) := do
  let s ← after? ['='] (skipSpace s)
  match skipSpace s with
  | c :: s =>
    if c = '\x22' || c = Char.ofNat 39 then do
      let (value, rest) ← readValue c none s
      return (String.ofList value, rest)
    else none
  | [] => none

/-- Reads attributes, each with space before it, and the space behind the last one. -/
def readAttributes : (fuel : Nat) → List Char → Option (Attributes × List Char)
  | 0, _ => none
  | fuel + 1, s =>
    match readName (skipSpace s) with
    | none => some ([], skipSpace s)
    | some (name, rest) =>
      if (s.takeWhile isSpace).isEmpty then none
      else do
        let (value, rest) ← readAssignment rest
        let (attributes, rest) ← readAttributes fuel rest
        if (attributes.lookup name).isSome then none else return ((name, value) :: attributes, rest)

/-- The node of character data, if there is any. -/
def dataNodes (data : List Char) : List Node :=
  if data = [] then [] else [.text (String.ofList data)]

mutual

/-- Reads an element whose opening bracket has been read. -/
def readElement : (fuel : Nat) → List Char → Option (Node × List Char)
  | 0, _ => none
  | fuel + 1, s => do
    let (name, rest) ← readName s
    let (attributes, rest) ← readAttributes (rest.length + 1) rest
    match rest with
    | '/' :: '>' :: rest => return (.element name attributes [], rest)
    | '>' :: rest =>
      let (content, rest) ← readContent fuel rest
      let (closing, rest) ← readName rest
      let rest ← after? ['>'] (skipSpace rest)
      if closing = name then return (.element name attributes content, rest) else none
    | _ => none

/-- Reads what an element holds, up to the name in its end tag. -/
def readContent : (fuel : Nat) → List Char → Option (List Node × List Char)
  | 0, _ => none
  | fuel + 1, s => do
    let (data, rest) ← readData none s
    match rest with
    | '<' :: '/' :: rest => return (dataNodes data, rest)
    | '<' :: rest =>
      let (node, rest) ← readElement fuel rest
      let (more, rest) ← readContent fuel rest
      return (dataNodes data ++ node :: more, rest)
    | _ => none

end

/-- The short names that are declared, the innermost first. The empty one is for names without any. -/
abbrev Scope := List (String × String)

/-- The parts of a name around its first colon. -/
def splitName (name : String) : Option (String × String) :=
  match name.toList.span (· ≠ ':') with
  | (_, []) => none
  | (short, _ :: rest) => some (String.ofList short, String.ofList rest)

def expandedName (space name : String) : String :=
  if space = "" then name else "\x7b" ++ space ++ "\x7d" ++ name

/-- Gives a name the namespace of its short name. A name without one gets `space`. -/
def Scope.expand? (scope : Scope) (space name : String) : Option String :=
  match splitName name with
  | none => some (expandedName space name)
  | some (short, rest) => (scope.lookup short).map fun space ↦ expandedName space rest

/-- The short name that an attribute declares. -/
def declared? (name : String) : Option String :=
  if name = "xmlns" then some ""
  else
    match splitName name with
    | some ("xmlns", short) => some short
    | _ => none

/-- The scope within an element with some attributes. -/
def Scope.enter (scope : Scope) (attributes : Attributes) : Scope :=
  (attributes.filterMap fun (name, space) ↦ (declared? name).map fun short ↦ (short, space)) ++ scope

/-- The attributes that declare nothing, with their names expanded. -/
def Scope.expandAttributes? (scope : Scope) : Attributes → Option Attributes
  | [] => some []
  | (name, value) :: rest => do
    let rest ← scope.expandAttributes? rest
    if (declared? name).isSome then return rest
    else
      let name ← scope.expand? "" name
      if (rest.lookup name).isSome then none else return (name, value) :: rest

mutual

/-- The node with all names expanded. -/
def Node.expand? (scope : Scope) : Node → Option Node
  | .text s => some (.text s)
  | .element name attributes content => do
    let inner := scope.enter attributes
    let name ← inner.expand? ((inner.lookup "").getD "") name
    let attributes ← inner.expandAttributes? attributes
    return .element name attributes (← expandAll? inner content)

def expandAll? (scope : Scope) : List Node → Option (List Node)
  | [] => some []
  | node :: rest => do return (← node.expand? scope) :: (← expandAll? scope rest)

end

/-- The scope of a whole document. -/
def Scope.start : Scope := [("xml", "http:" ++ "//www.w3.org/XML/1998/namespace")]

/-- The text of a document after its declaration, if it has one. -/
def afterDeclaration (s : List Char) : Option (List Char) :=
  match after? "<?xml".toList s with
  | none => some s
  | some rest => do
    let (attributes, rest) ← readAttributes (rest.length + 1) rest
    if attributes.map Prod.fst ∈ [["version"], ["version", "encoding"]] then after? ['?', '>'] rest
    else none

/-- The tree of a document. Nothing but space may stand around the root element. -/
def readDocument (s : List Char) : Option Node := do
  let rest ← afterDeclaration s
  let rest ← after? ['<'] (skipSpace rest)
  let (root, rest) ← readElement (rest.length + 1) rest
  if skipSpace rest = [] then root.expand? .start else none

namespace Node

def isElement : Node → Bool
  | .element _ _ _ => true
  | .text _ => false

def data : Node → String
  | .element _ _ _ => ""
  | .text s => s

/-- Holds of a text that serves for layout only. -/
def isLayout (s : String) : Bool := s.toList.all isSpace

mutual

/-- The element of a node. Between the children of an element there may be nothing but layout. -/
def toElement? : Node → Option Element
  | .text _ => none
  | .element name attributes content =>
    if !content.any isElement then
      some (.node name attributes (join "" (content.map data)) [])
    else do return .node name attributes "" (← toElements? content)

def toElements? : List Node → Option (List Element)
  | [] => some []
  | node :: rest =>
    if node.isElement then do return (← node.toElement?) :: (← toElements? rest)
    else if isLayout node.data then toElements? rest
    else none

end

end Node

/-- The element that the text of a document stands for. -/
def read? (text : String) : Option Element :=
  (readDocument (lineEnds text.toList)).bind Node.toElement?

end WixAuthoring.Xml
