import WixAuthoring.Package.Basic

namespace WixAuthoring

/-!
# Editing a package

Entries are put in and taken out by position, at the top of the package or in a directory that is found
by positions. A position may be counted from the end with a negative number.
-/

/-- A position in a list, from its beginning. -/
def position (length : Nat) (i : Int) : Int := if i < 0 then i + length else i

/-- A position to put something at, moved to the nearest end of the list if it lies outside. -/
def insertPosition (length : Nat) (i : Int) : Nat := min (position length i).toNat length

def insertAt {α : Type} (i : Int) (a : α) (l : List α) : List α :=
  l.insertIdx (insertPosition l.length i) a

def itemPosition? (length : Nat) (i : Int) : Option Nat :=
  let n := position length i
  if 0 ≤ n && n < length then some n.toNat else none

namespace Entry

/-- Changes the entries of the directory that the positions lead to. -/
def editAt (change : List Entry → Option (List Entry)) : List Int → List Entry → Option (List Entry)
  | [], entries => change entries
  | i :: rest, entries => do
    let n ← itemPosition? entries.length i
    match entries[n]? with
    | some (.directory name inner own id) =>
      let inner ← editAt change rest inner
      some (entries.set n (.directory name inner own id))
    | _ => none

/-- The entries of the directory that the positions lead to. -/
def entriesAt? : List Int → List Entry → Option (List Entry)
  | [], entries => some entries
  | i :: rest, entries => do
    let n ← itemPosition? entries.length i
    match entries[n]? with
    | some (.directory _ inner _ _) => entriesAt? rest inner
    | _ => none

end Entry

namespace Package

/-- Puts an entry into a directory, at its end if no position is given. -/
def insertEntry? (p : Package) (directory : List Int) (i : Option Int) (e : Entry) : Option Package :=
  (Entry.editAt (fun entries ↦ some (insertAt (i.getD entries.length) e entries)) directory p.entries).map
    fun entries ↦ { p with entries }

def removeEntry? (p : Package) (directory : List Int) (i : Int) : Option Package :=
  (Entry.editAt (fun entries ↦ (itemPosition? entries.length i).map entries.eraseIdx) directory
      p.entries).map
    fun entries ↦ { p with entries }

def updateFeature (p : Package) (f : FeatureRef) (change : Feature → Feature) : Package :=
  { p with features := p.features.modify f change }

end Package

end WixAuthoring
