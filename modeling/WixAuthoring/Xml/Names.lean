import WixAuthoring.Xml.Element

namespace WixAuthoring.Xml

/-!
# Names with a namespace

A name may be expanded: a namespace between braces, then the local name. In a document such a name is
written with a short name for its namespace, and the root element says which namespace each short name
stands for. A few namespaces have a short name of their own, the others are numbered. All other names
are written as they are.
-/

/-- The written forms of the expanded names so far, and the short names given to namespaces. -/
structure Names where
  written : List (String × String) := []
  declared : List (String × String) := []
  deriving Repr

/-- The namespaces with a short name of their own, by what follows the scheme. -/
def wellKnown : List (String × String) :=
  [("www.w3.org/XML/1998/namespace", "xml"),
   ("www.w3.org/1999/xhtml", "html"),
   ("www.w3.org/1999/02/22-rdf-syntax-ns#", "rdf"),
   ("schemas.xmlsoap.org/wsdl/", "wsdl"),
   ("www.w3.org/2001/XMLSchema", "xs"),
   ("www.w3.org/2001/XMLSchema-instance", "xsi"),
   ("purl.org/dc/elements/1.1/", "dc")]

def scheme : String := "http:" ++ "//"

def wellKnown? (space : String) : Option String :=
  (wellKnown.find? fun known ↦ scheme ++ known.1 = space).map Prod.snd

/-- The parts of a text around the last character of a kind. -/
def splitAtLast (c : Char) : List Char → Option (List Char × List Char)
  | [] => none
  | x :: s =>
    match splitAtLast c s with
    | some (before, behind) => some (x :: before, behind)
    | none => if x = c then some ([], s) else none

/-- Holds of a name that is written as it is. -/
def isUnbraced (name : String) : Bool := name.toList.head? != some '\x7b'

namespace Names

def shortName (names : Names) (space : String) : String :=
  match names.declared.lookup space with
  | some short => short
  | none =>
    match wellKnown? space with
    | some short => short
    | none => "ns" ++ toString names.declared.length

/-- Notes the namespace of a short name, once. The namespace of XML itself needs no notice. -/
def declare (names : Names) (space short : String) : List (String × String) :=
  if short = "xml" || (names.declared.lookup space).isSome then names.declared
  else names.declared ++ [(space, short)]

/-- Finds a written form for a name. A brace that is never closed spoils the name. -/
def add? (names : Names) (name : String) : Option Names :=
  match name.toList with
  | '\x7b' :: s =>
    if (names.written.lookup name).isSome then some names
    else
      match splitAtLast '\x7d' s with
      | none => none
      | some (space, rest) =>
        let space := String.ofList space
        let short := names.shortName space
        some ⟨names.written ++ [(name, short ++ ":" ++ String.ofList rest)], names.declare space short⟩
  | _ => some names

def addAll? (names : Names) : List String → Option Names
  | [] => some names
  | name :: rest => (names.add? name).bind fun names ↦ names.addAll? rest

/-- The names of all elements below an element and of their attributes, in the order of the document. -/
def ofElement? (e : Element) : Option Names :=
  ({} : Names).addAll? (e.flatten.flatMap fun e ↦ e.name :: e.attributes.map Prod.fst)

def spell (names : Names) (name : String) : String := (names.written.lookup name).getD name

/-- What the root element says about short names, in their order. -/
def declarations (names : Names) : List (String × String) :=
  names.declared.mergeSort fun a b ↦ a.2 ≤ b.2

theorem add?_of_isUnbraced {name : String} (h : isUnbraced name = true) (names : Names) :
    names.add? name = some names := by
  rw [add?]
  split
  · next heq => simp [isUnbraced, heq] at h
  · rfl

theorem addAll?_of_isUnbraced {l : List String} (h : ∀ name ∈ l, isUnbraced name = true)
    (names : Names) : names.addAll? l = some names := by
  induction l with
  | nil => rfl
  | cons name rest ih =>
    rw [List.forall_mem_cons] at h
    rw [addAll?, add?_of_isUnbraced h.1, Option.bind_some, ih h.2]

@[simp] theorem spell_empty (name : String) : ({} : Names).spell name = name := rfl

end Names

end WixAuthoring.Xml
