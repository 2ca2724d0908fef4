namespace WixAuthoring.Text

/-!
# Lines

A line ends at a line feed, at a carriage return, or at a carriage return with its line feed. What
follows the last end is a line as well, often an empty one.
-/

def lines : List Char → List (List Char)
  | [] => [[]]
  | '\r' :: '\n' :: s => [] :: lines s
  | '\r' :: s => [] :: lines s
  | '\n' :: s => [] :: lines s
  | c :: s =>
    match lines s with
    | [] => [[c]]
    | line :: rest => (c :: line) :: rest

/-- Holds at the end of a text. One line feed before it is passed over. -/
def isEnd (s : List Char) : Bool := s = [] || s = ['\n']

theorem lines_ne_nil (s : List Char) : lines s ≠ [] := by
  fun_cases lines s <;> simp_all

end WixAuthoring.Text
