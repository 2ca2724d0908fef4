namespace WixAuthoring.Xml

/-!
# Characters of a document

Which characters a document may hold, which of them are space, and which make a name. A name begins with
a letter, an underscore or a colon.
-/

/-- Holds of the characters that a document may hold, as they are or by number. -/
def isCharacter (c : Char) : Bool :=
  let n := c.toNat
  n == 0x9 || n == 0xA || n == 0xD || (0x20 ≤ n && n ≤ 0xD7FF) || (0xE000 ≤ n && n ≤ 0xFFFD) ||
    0x10000 ≤ n

def isSpace (c : Char) : Bool := c == ' ' || c == '\t' || c == '\n' || c == '\r'

/-- The ranges of the letters that may begin a name. -/
def nameStartRanges : List (Nat × Nat) :=
  [(0x3A, 0x3A), (0x41, 0x5A), (0x5F, 0x5F), (0x61, 0x7A), (0xC0, 0xD6), (0xD8, 0xF6), (0xF8, 0x2FF),
   (0x370, 0x37D), (0x37F, 0x1FFF), (0x200C, 0x200D), (0x2070, 0x218F), (0x2C00, 0x2FEF),
   (0x3001, 0xD7FF), (0xF900, 0xFDCF), (0xFDF0, 0xFFFD), (0x10000, 0xEFFFF)]

/-- The ranges of what may stand in a name but not begin it. -/
def nameRestRanges : List (Nat × Nat) :=
  [(0x2D, 0x2E), (0x30, 0x39), (0xB7, 0xB7), (0x300, 0x36F), (0x203F, 0x2040)]

def inRanges (ranges : List (Nat × Nat)) (c : Char) : Bool :=
  ranges.any fun (low, high) ↦ low ≤ c.toNat && c.toNat ≤ high

def isNameStart (c : Char) : Bool := inRanges nameStartRanges c

def isNameRest (c : Char) : Bool := isNameStart c || inRanges nameRestRanges c

/-- Holds of the names of elements and attributes. -/
def isName : List Char → Bool
  | [] => false
  | c :: s => isNameStart c && s.all isNameRest

theorem isNameRest_of_isNameStart {c : Char} (h : isNameStart c = true) : isNameRest c = true := by
  simp [isNameRest, h]

theorem all_isNameRest_of_isName {s : List Char} (h : isName s = true) : s.all isNameRest = true := by
  cases s with
  | nil => rfl
  | cons c s =>
    simp only [isName, Bool.and_eq_true] at h
    rw [List.all_cons, isNameRest_of_isNameStart h.1, h.2]
    rfl

end WixAuthoring.Xml
