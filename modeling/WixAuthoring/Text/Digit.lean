namespace WixAuthoring.Text

/-!
# Decimal digits

Numbers are written with the ten ASCII digits. Other scripts have decimal digits too, ten code
points in a row from each start in the table; they are told apart because a release number spelled
with them is recognised but never read.
-/

def isDigit (c : Char) : Bool := '0' ≤ c && c ≤ '9'

def digitValue (c : Char) : Nat := c.toNat - '0'.toNat

/-- The number that a run of ASCII digits spells. -/
def numeral (digits : List Char) : Nat :=
  digits.foldl (fun n c ↦ 10 * n + digitValue c) 0

@[simp] theorem numeral_nil : numeral [] = 0 := rfl

/-- The zeros of all scripts that have decimal digits. -/
def scriptZeros : List Nat :=
  [48, 1632, 1776, 1984, 2406, 2534, 2662, 2790, 2918, 3046, 3174, 3302, 3430, 3558, 3664, 3792,
   3872, 4160, 4240, 6112, 6160, 6470, 6608, 6784, 6800, 6992, 7088, 7232, 7248, 42528, 43216,
   43264, 43472, 43504, 43600, 44016, 65296, 66720, 68912, 69734, 69872, 69942, 70096, 70384,
   70736, 70864, 71248, 71360, 71472, 71904, 72016, 72784, 73040, 73120, 92768, 92864, 93008,
   120782, 120792, 120802, 120812, 120822, 123200, 123632, 125264, 130032]

/-- Holds of the decimal digits of every script. -/
def isScriptDigit (c : Char) : Bool :=
  scriptZeros.any fun first ↦ first ≤ c.toNat && c.toNat ≤ first + 9

theorem isScriptDigit_of_isDigit {c : Char} (h : isDigit c = true) : isScriptDigit c = true := by
  have hc : 48 ≤ c.toNat ∧ c.toNat ≤ 57 := by
    simp only [isDigit, Bool.and_eq_true, decide_eq_true_eq, Char.le_def] at h
    exact ⟨h.1, h.2⟩
  have : (48 : Nat) ∈ scriptZeros := by simp [scriptZeros]
  exact List.any_eq_true.2 ⟨48, this, by simp [hc]⟩

end WixAuthoring.Text
