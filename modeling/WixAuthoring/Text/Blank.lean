namespace WixAuthoring.Text

/-!
# White space

The characters that separate words in a manifest line: the control separators, the space and the
spaces of the general punctuation block. A line ends at a line feed, a carriage return or both.
-/

def isBlank (c : Char) : Bool :=
  let n := c.toNat
  (9 ≤ n && n ≤ 13) || (28 ≤ n && n ≤ 32) || n == 0x85 || n == 0xA0 || n == 0x1680 ||
    (0x2000 ≤ n && n ≤ 0x200A) || n == 0x2028 || n == 0x2029 || n == 0x202F || n == 0x205F ||
    n == 0x3000

def dropBlanks (s : List Char) : List Char := s.dropWhile isBlank

/-- What is left of a text without the white space at both of its ends. -/
def trimBlanks (s : List Char) : List Char :=
  (dropBlanks (dropBlanks s).reverse).reverse

/-- Holds of a text that shows nothing: empty, or white space alone. -/
def isAllBlank (s : List Char) : Bool := s.all isBlank

@[simp] theorem dropBlanks_nil : dropBlanks [] = [] := rfl

theorem dropBlanks_cons_of_not_blank {c : Char} (h : isBlank c = false) (s : List Char) :
    dropBlanks (c :: s) = c :: s := by
  simp [dropBlanks, h]

theorem dropBlanks_eq_self {s : List Char} (h : ∀ c ∈ s, isBlank c = false) : dropBlanks s = s := by
  cases s with
  | nil => rfl
  | cons c s => exact dropBlanks_cons_of_not_blank (h c List.mem_cons_self) s

theorem trimBlanks_eq_self {s : List Char} (h : ∀ c ∈ s, isBlank c = false) : trimBlanks s = s := by
  have hreverse : ∀ c ∈ s.reverse, isBlank c = false := fun c hc ↦ h c (List.mem_reverse.1 hc)
  rw [trimBlanks, dropBlanks_eq_self h, dropBlanks_eq_self hreverse, List.reverse_reverse]

end WixAuthoring.Text
