import WixAuthoring.Proofs.Escapes

namespace WixAuthoring.Xml

/-!
# Tags are read back

A name ends where something follows that no name holds, and attributes end where no name follows.
What is written for the names and attributes of a tag is read as those names and attributes.
-/

open Text

/-! ## Names -/

theorem isSpace_eq_false_of_isNameRest {c : Char} (h : isNameRest c = true) :
    isSpace c = false := by
  rw [Bool.eq_false_iff]
  intro hspace
  simp only [isSpace, Bool.or_eq_true, beq_iff_eq, or_assoc] at hspace
  rcases hspace with rfl | rfl | rfl | rfl <;> exact absurd h (by decide)

theorem readName_append {name : String} {c : Char} {s : List Char}
    (hname : isName name.toList = true) (hc : isNameRest c = false) :
    readName (name.toList ++ c :: s) = some (name, c :: s) := by
  have hall : ∀ x ∈ name.toList, isNameRest x = true :=
    List.all_eq_true.1 (all_isNameRest_of_isName hname)
  have htake : (name.toList ++ c :: s).takeWhile isNameRest = name.toList := by
    rw [List.takeWhile_append_of_pos hall, List.takeWhile_cons_of_neg (by simp [hc]),
      List.append_nil]
  have hdrop : (name.toList ++ c :: s).dropWhile isNameRest = c :: s := by
    rw [List.dropWhile_append_of_pos hall, List.dropWhile_cons_of_neg (by simp [hc])]
  rw [readName, htake, hdrop, if_pos hname, String.ofList_toList]

theorem readName_cons_eq_none {c : Char} {s : List Char} (hc : isNameStart c = false) :
    readName (c :: s) = none := by
  rw [readName, if_neg]
  intro h
  by_cases hrest : isNameRest c = true
  · rw [List.takeWhile_cons_of_pos hrest, isName, hc] at h
    exact absurd h (by simp)
  · rw [List.takeWhile_cons_of_neg hrest] at h
    exact absurd h (by decide)

theorem exists_of_isName {s : List Char} (h : isName s = true) :
    ∃ c t, s = c :: t ∧ isNameStart c = true := by
  cases s with
  | nil => exact absurd h (by decide)
  | cons c t =>
      rw [isName, Bool.and_eq_true] at h
      exact ⟨c, t, rfl, h.1⟩

theorem skipSpace_of_isName {name s : List Char} (h : isName name = true) :
    skipSpace (name ++ s) = name ++ s := by
  obtain ⟨c, t, rfl, hc⟩ := exists_of_isName h
  have hspace := isSpace_eq_false_of_isNameRest (isNameRest_of_isNameStart hc)
  rw [List.cons_append, skipSpace, List.dropWhile_cons_of_neg (by simp [hspace])]

/-! ## Attributes -/

theorem readAssignment_write {value : String} (hvalue : IsText value) (s : List Char) :
    readAssignment ('=' :: '\x22' :: escapeAttribute value ++ '\x22' :: s) = some (value, s) := by
  have hequals : skipSpace ('=' :: '\x22' :: escapeAttribute value ++ '\x22' :: s) =
      '=' :: '\x22' :: escapeAttribute value ++ '\x22' :: s := rfl
  have hquote : skipSpace ('\x22' :: escapeAttribute value ++ '\x22' :: s) =
      '\x22' :: (escapeAttribute value ++ '\x22' :: s) := rfl
  rw [readAssignment, hequals]
  simp only [List.cons_append, after?, if_true, Option.bind_eq_bind, Option.bind_some]
  rw [← List.cons_append, hquote]
  simp only [decide_true, Bool.true_or, if_true, readValue_escapeAttribute hvalue, Option.bind_some,
    String.ofList_toList]
  rfl

theorem lookup_eq_none_of_not_mem {name : String} {attributes : Attributes}
    (h : name ∉ attributes.map Prod.fst) : attributes.lookup name = none := by
  rw [List.lookup_eq_none_iff]
  intro a ha
  have hne : name ≠ a.1 := by
    rintro rfl
    exact h (List.mem_map.2 ⟨a, ha, rfl⟩)
  simpa using hne

@[simp] theorem writeAttributes_nil (names : Names) : writeAttributes names [] = [] := rfl

theorem writeAttributes_cons (names : Names) (name value : String) (rest : Attributes) :
    writeAttributes names ((name, value) :: rest) =
      writeAttribute (names.spell name) value ++ writeAttributes names rest := rfl

theorem readAttributes_write {attributes : Attributes} {s : List Char} {fuel : Nat}
    (hread : ∀ a ∈ attributes, isName a.1.toList = true ∧ IsText a.2)
    (hnodup : (attributes.map Prod.fst).Nodup) (hs : readName (skipSpace s) = none)
    (hfuel : attributes.length < fuel) :
    readAttributes fuel (writeAttributes {} attributes ++ s) = some (attributes, skipSpace s) := by
  induction attributes generalizing fuel with
  | nil =>
      obtain ⟨fuel, rfl⟩ : ∃ n, fuel = n + 1 := ⟨fuel - 1, by simp at hfuel; omega⟩
      rw [writeAttributes_nil, List.nil_append, readAttributes, hs]
  | cons a rest ih =>
      obtain ⟨name, value⟩ := a
      obtain ⟨fuel, rfl⟩ : ∃ n, fuel = n + 1 := ⟨fuel - 1, by simp at hfuel; omega⟩
      rw [List.forall_mem_cons] at hread
      rw [List.map_cons, List.nodup_cons] at hnodup
      have hlookup := lookup_eq_none_of_not_mem hnodup.1
      have hwritten : writeAttributes {} ((name, value) :: rest) ++ s =
          ' ' :: (name.toList ++
            ('=' :: '\x22' :: escapeAttribute value ++ '\x22' :: (writeAttributes {} rest ++ s))) := by
        simp [writeAttributes_cons, writeAttribute]
      have hskip (t : List Char) : skipSpace (' ' :: t) = skipSpace t := rfl
      have hbefore (t : List Char) : ((' ' :: t).takeWhile isSpace).isEmpty = false := rfl
      rw [hwritten, readAttributes, hskip, skipSpace_of_isName hread.1.1, List.cons_append,
        readName_append hread.1.1 (by decide), ← List.cons_append]
      simp only [hbefore, readAssignment_write hread.1.2, Option.bind_eq_bind, Option.bind_some,
        ih hread.2 hnodup.2 (by simpa using hfuel), hlookup]
      rfl

theorem length_le_length_writeAttributes (attributes : Attributes) :
    attributes.length ≤ (writeAttributes {} attributes).length := by
  induction attributes with
  | nil => simp
  | cons a rest ih =>
      obtain ⟨name, value⟩ := a
      rw [writeAttributes_cons, List.length_append, List.length_cons, writeAttribute]
      simp only [List.length_append, List.length_cons]
      omega

/-- There is always fuel enough for attributes that were written. -/
theorem readAttributes_written {attributes : Attributes} {s : List Char}
    (hread : ∀ a ∈ attributes, isName a.1.toList = true ∧ IsText a.2)
    (hnodup : (attributes.map Prod.fst).Nodup) (hs : readName (skipSpace s) = none) :
    readAttributes ((writeAttributes {} attributes ++ s).length + 1)
        (writeAttributes {} attributes ++ s) = some (attributes, skipSpace s) := by
  apply readAttributes_write hread hnodup hs
  have hlength := length_le_length_writeAttributes attributes
  rw [List.length_append]
  omega

end WixAuthoring.Xml
