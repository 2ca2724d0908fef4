import WixAuthoring.Text.Split

namespace WixAuthoring

/-!
# Paths

A path is an anchor and a list of names. Names that are empty or a single dot say nothing and are
dropped; two dots are kept, because what they mean depends on links. Sources of a package are written
with slashes or backslashes and always lie below the root they are taken from.
-/

/-- Where a path begins: at the working directory, at the root, or at the root spelled with exactly
two slashes, which is kept apart. -/
inductive Anchor where
  | relative
  | root
  | doubleRoot
  deriving DecidableEq, Repr

structure Path where
  anchor : Anchor
  parts : List String
  deriving DecidableEq, Repr

namespace Path

def isName (s : String) : Bool := s ≠ "" && s ≠ "."

/-- The names of a text that is cut at the given separators. -/
def names (separates : Char → Bool) (s : String) : List String :=
  (Text.split separates s).filter isName

def isSlash (c : Char) : Bool := c == '/'

def isSeparator (c : Char) : Bool := c == '/' || c == '\\'

def anchorOf : List Char → Anchor
  | '/' :: '/' :: '/' :: _ => .root
  | '/' :: '/' :: _ => .doubleRoot
  | '/' :: _ => .root
  | _ => .relative

def parse (s : String) : Path := ⟨anchorOf s.toList, names isSlash s⟩

def current : Path := ⟨.relative, []⟩

def text (p : Path) : String :=
  match p.anchor with
  | .relative => if p.parts = [] then "." else Text.join "/" p.parts
  | .root => "/" ++ Text.join "/" p.parts
  | .doubleRoot => "//" ++ Text.join "/" p.parts

/-- The second path seen from the first one. An anchored path stays where it is. -/
def append (p q : Path) : Path :=
  match q.anchor with
  | .relative => ⟨p.anchor, p.parts ++ q.parts⟩
  | _ => q

instance : HAppend Path Path Path := ⟨append⟩

/-- The path of a file with the given name or relative path below this one. -/
def child (p : Path) (s : String) : Path := p ++ parse s

def parent (p : Path) : Path := ⟨p.anchor, p.parts.dropLast⟩

/-- The path of a source below a root. Both separators are read, and none of them can lead out. -/
def source (root : Path) (s : String) : Path := ⟨root.anchor, root.parts ++ names isSeparator s⟩

@[simp] theorem source_anchor (root : Path) (s : String) : (root.source s).anchor = root.anchor := rfl

@[simp] theorem source_parts (root : Path) (s : String) :
    (root.source s).parts = root.parts ++ names isSeparator s := rfl

@[simp] theorem parts_current : current.parts = [] := rfl

end Path

end WixAuthoring
