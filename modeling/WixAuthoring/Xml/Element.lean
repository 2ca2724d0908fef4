import WixAuthoring.Attributes

namespace WixAuthoring.Xml

/-!
# Elements

An element has a name, attributes, a text in front of its children, and the children. An element with
no text has the empty one.
-/

inductive Element where
  | node (name : String) (attributes : Attributes) (text : String) (children : List Element)
  deriving Repr

namespace Element

def name : Element → String
  | .node name _ _ _ => name

def attributes : Element → Attributes
  | .node _ attributes _ _ => attributes

def text : Element → String
  | .node _ _ text _ => text

def children : Element → List Element
  | .node _ _ _ children => children

def attribute? (e : Element) (name : String) : Option String := e.attributes.get? name

/-- An element that holds nothing. -/
def leaf (name : String) (attributes : Attributes) : Element := .node name attributes "" []

/-- An element that holds nothing but a text. -/
def textLeaf (name : String) (attributes : Attributes) (text : String) : Element :=
  .node name attributes text []

/-- An element that holds nothing but children. -/
def branch (name : String) (attributes : Attributes) (children : List Element) : Element :=
  .node name attributes "" children

/-- The element with more children after its own. -/
def append (more : List Element) : Element → Element
  | .node name attributes text children => .node name attributes text (children ++ more)

@[simp] theorem name_leaf (n : String) (a : Attributes) : (leaf n a).name = n := rfl

@[simp] theorem name_textLeaf (n : String) (a : Attributes) (t : String) :
    (textLeaf n a t).name = n := rfl

@[simp] theorem name_branch (n : String) (a : Attributes) (c : List Element) :
    (branch n a c).name = n := rfl

@[simp] theorem text_textLeaf (n : String) (a : Attributes) (t : String) :
    (textLeaf n a t).text = t := rfl

@[simp] theorem children_leaf (n : String) (a : Attributes) : (leaf n a).children = [] := rfl

@[simp] theorem children_textLeaf (n : String) (a : Attributes) (t : String) :
    (textLeaf n a t).children = [] := rfl

@[simp] theorem children_branch (n : String) (a : Attributes) (c : List Element) :
    (branch n a c).children = c := rfl

@[simp] theorem children_append (e : Element) (more : List Element) :
    (e.append more).children = e.children ++ more := by
  cases e; rfl

mutual

/-- The element and everything below it, in the order of the document. -/
def flatten : Element → List Element
  | .node name attributes text children =>
    .node name attributes text children :: flattenAll children

def flattenAll : List Element → List Element
  | [] => []
  | e :: rest => e.flatten ++ flattenAll rest

end

/-- The elements of a name in the document, in order. -/
def named (e : Element) (name : String) : List Element := e.flatten.filter (·.name = name)

end Element

end WixAuthoring.Xml
