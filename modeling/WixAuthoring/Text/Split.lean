namespace WixAuthoring.Text

/-!
# Splitting a text

A text is cut at every separator. There is always one piece more than there are separators, and
pieces may be empty.
-/

/-- Puts a character in front of the first piece. -/
def consToFirst (c : Char) : List (List Char) → List (List Char)
  | [] => [[c]]
  | piece :: pieces => (c :: piece) :: pieces

def splitChars (separates : Char → Bool) : List Char → List (List Char)
  | [] => [[]]
  | c :: s =>
    if separates c then [] :: splitChars separates s else consToFirst c (splitChars separates s)

def split (separates : Char → Bool) (s : String) : List String :=
  (splitChars separates s.toList).map String.ofList

@[simp] theorem consToFirst_ne_nil (c : Char) (pieces : List (List Char)) :
    consToFirst c pieces ≠ [] := by
  cases pieces <;> simp [consToFirst]

theorem splitChars_ne_nil (separates : Char → Bool) (s : List Char) :
    splitChars separates s ≠ [] := by
  cases s with
  | nil => simp [splitChars]
  | cons c s => by_cases h : separates c = true <;> simp [splitChars, h]

theorem splitChars_of_none {separates : Char → Bool} {s : List Char}
    (h : ∀ c ∈ s, separates c = false) : splitChars separates s = [s] := by
  induction s with
  | nil => rfl
  | cons c s ih =>
    rw [List.forall_mem_cons] at h
    rw [splitChars, h.1, ih h.2]
    rfl

theorem splitChars_append_cons {separates : Char → Bool} {s : List Char} {c : Char}
    (h : ∀ c ∈ s, separates c = false) (hc : separates c = true) (t : List Char) :
    splitChars separates (s ++ c :: t) = s :: splitChars separates t := by
  induction s with
  | nil => rw [List.nil_append, splitChars, if_pos hc]
  | cons d s ih =>
    rw [List.forall_mem_cons] at h
    rw [List.cons_append, splitChars, h.1, ih h.2]
    rfl

/-- The rest of a text that begins with the given word. -/
def after? : (word text : List Char) → Option (List Char)
  | [], text => some text
  | _ :: _, [] => none
  | w :: word, c :: text => if w = c then after? word text else none

@[simp] theorem after?_nil (text : List Char) : after? [] text = some text := by
  cases text <;> rfl

theorem after?_append (word text : List Char) : after? word (word ++ text) = some text := by
  induction word with
  | nil => simp
  | cons w word ih => simp [after?, ih]

theorem eq_append_of_after? {word text rest : List Char} (h : after? word text = some rest) :
    text = word ++ rest := by
  induction word generalizing text with
  | nil => simp_all
  | cons w word ih =>
    cases text with
    | nil => simp [after?] at h
    | cons c text =>
      by_cases hc : w = c
      · simp only [after?, hc, if_true] at h
        simp [hc, ih h]
      · simp [after?, hc] at h

/-- The pieces with a separator between each two. -/
def join (separator : String) : List String → String
  | [] => ""
  | [s] => s
  | s :: t :: rest => s ++ separator ++ join separator (t :: rest)

theorem forall_mem_join {p : Char → Prop} {separator : String} (hseparator : ∀ c ∈ separator.toList, p c) :
    (l : List String) → (∀ s ∈ l, ∀ c ∈ s.toList, p c) → ∀ c ∈ (join separator l).toList, p c
  | [], _ => by simp [join]
  | [s], h => h s (by simp)
  | s :: t :: rest, h => by
    rw [List.forall_mem_cons] at h
    rw [join, String.toList_append, String.toList_append, List.forall_mem_append,
      List.forall_mem_append]
    exact ⟨⟨h.1, hseparator⟩, forall_mem_join hseparator (t :: rest) h.2⟩

end WixAuthoring.Text
