namespace WixAuthoring

/-!
# Texts that are given

A text that is missing and a text that is empty both leave a matter to its default.
-/

def given (s : Option String) : Option String := s.filter (· ≠ "")

@[simp] theorem given_none : given none = none := rfl

@[simp] theorem given_empty : given (some "") = none := by simp [given]

theorem given_some {s : String} (h : s ≠ "") : given (some s) = some s := by simp [given, h]

theorem eq_some_of_given {s : Option String} {t : String} (h : given s = some t) : s = some t :=
  (Option.filter_eq_some_iff.1 h).1

end WixAuthoring
