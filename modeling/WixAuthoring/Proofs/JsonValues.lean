import WixAuthoring.Proofs.JsonTexts

namespace WixAuthoring.Json

/-!
# Values are read back

A reader that meets a written value finds that value, whatever is behind it, and takes nothing of what
is behind. So a whole text that was written stands for the value that it was written for, with all
fields in their order.
-/

open Text

/-- What holds of a list when it holds of its items, and of an object when it holds of the values of its
fields, holds of every value. -/
@[elab_as_elim]
theorem Value.induction {motive : Value → Prop} (null : motive .null)
    (boolean : ∀ b, motive (.boolean b)) (integer : ∀ n, motive (.integer n))
    (text : ∀ s, motive (.text s)) (list : ∀ items, (∀ v ∈ items, motive v) → motive (.list items))
    (object : ∀ fields, (∀ f ∈ fields, motive f.2) → motive (.object fields)) :
    (value : Value) → motive value
  | .null => null
  | .boolean b => boolean b
  | .integer n => integer n
  | .text s => text s
  | .list items => list items fun v _ ↦ Value.induction null boolean integer text list object v
  | .object fields => object fields fun (_, v) _ ↦
      Value.induction null boolean integer text list object v
decreasing_by
  · have := List.sizeOf_lt_of_mem (by assumption : v ∈ items)
    rw [Value.list.sizeOf_spec]
    omega
  · have := List.sizeOf_lt_of_mem (by assumption : (_, v) ∈ fields)
    rw [Prod.mk.sizeOf_spec] at this
    rw [Value.object.sizeOf_spec]
    omega

/-! ## White space -/

variable {fuel level outer : Nat} {v : Value} {c : Char} {s rest : List Char}

theorem skipSpace_of_head (hc : isSpace c = false) (s : List Char) : skipSpace (c :: s) = c :: s :=
  List.dropWhile_cons_of_neg (by simp [hc])

theorem skipSpace_newLine (level : Nat) (s : List Char) :
    skipSpace (newLine level ++ s) = skipSpace s := by
  have hspace : ∀ c ∈ newLine level, isSpace c = true := by
    intro c hc
    rw [newLine, List.mem_cons] at hc
    rcases hc with rfl | hc
    · rfl
    · rw [List.eq_of_mem_replicate hc]
      rfl
  exact List.dropWhile_append_of_pos hspace

theorem readValue_congr {t : List Char} (h : skipSpace s = skipSpace t) (fuel : Nat) :
    readValue fuel s = readValue fuel t := by
  cases fuel with
  | zero => rfl
  | succ fuel => rw [readValue, readValue, h]

theorem readItems_newLine (fuel level : Nat) (s : List Char) :
    readItems fuel (newLine level ++ s) = readItems fuel s := by
  cases fuel with
  | zero => rfl
  | succ fuel => rw [readItems, readItems, readValue_congr (skipSpace_newLine level s)]

theorem readFields_newLine (fuel level : Nat) (s : List Char) :
    readFields fuel (newLine level ++ s) = readFields fuel s := by
  cases fuel with
  | zero => rfl
  | succ fuel => rw [readFields, readFields, skipSpace_newLine]

/-! ## Where a value begins -/

/-- Holds of a character that an integer begins with. -/
def BeginsInteger (c : Char) : Prop := c = '-' ∨ isDigit c = true

theorem exists_writeInteger (n : Int) : ∃ c s, writeInteger n = c :: s ∧ BeginsInteger c := by
  have hnatural (n : Nat) : ∃ c s, n.repr.toList = c :: s ∧ BeginsInteger c := by
    obtain ⟨c, s, hchars⟩ := List.exists_cons_of_ne_nil (toList_repr_ne_nil n)
    exact ⟨c, s, hchars, .inr (isDigit_of_mem_repr (hchars ▸ List.mem_cons_self))⟩
  rw [writeInteger, Int.toString_eq_repr, Int.repr_eq_if]
  split
  · exact hnatural n.toNat
  · rw [String.toList_append]
    exact ⟨'-', _, rfl, .inl rfl⟩

theorem BeginsInteger.ne (h : BeginsInteger c) {d : Char} (hd : d ≠ '-' ∧ isDigit d = false) :
    c ≠ d := by
  rintro rfl
  rcases h with h | h
  · exact hd.1 h
  · rw [hd.2] at h
    cases h

theorem BeginsInteger.not_space (h : BeginsInteger c) : isSpace c = false := by
  simp [isSpace, h.ne (d := ' ') (by decide), h.ne (d := '\t') (by decide),
    h.ne (d := '\n') (by decide), h.ne (d := '\r') (by decide)]

theorem BeginsInteger.readWord_eq_none (h : BeginsInteger c) (s : List Char) :
    readWord (c :: s) = none := by
  have hword (w : Char) (word : List Char) (hw : w ≠ '-' ∧ isDigit w = false) :
      after? (w :: word) (c :: s) = none := by
    rw [after?, if_neg (h.ne hw).symm]
  rw [readWord]
  simp only [String.reduceToList, hword _ _ (by decide : 'n' ≠ '-' ∧ isDigit 'n' = false),
    hword _ _ (by decide : 't' ≠ '-' ∧ isDigit 't' = false),
    hword _ _ (by decide : 'f' ≠ '-' ∧ isDigit 'f' = false), Option.map_none]
  rfl

/-- No value begins like white space or like the end of a list. -/
theorem exists_write (v : Value) (level : Nat) :
    ∃ c s, v.write level = c :: s ∧ isSpace c = false ∧ c ≠ ']' := by
  have hbracket (first last : Char) (written : List (List Char)) :
      ∃ s, bracket first last level written = first :: s := by
    cases written with
    | nil => exact ⟨_, rfl⟩
    | cons item items => exact ⟨_, rfl⟩
  cases v with
  | null => exact ⟨_, _, rfl, by decide⟩
  | boolean b => cases b <;> exact ⟨_, _, rfl, by decide⟩
  | integer n =>
      obtain ⟨c, s, hwrite, hc⟩ := exists_writeInteger n
      exact ⟨c, s, hwrite, hc.not_space, hc.ne (by decide)⟩
  | text s => exact ⟨doubleQuote, _, rfl, by decide⟩
  | list items =>
      obtain ⟨s, hwrite⟩ := hbracket '[' ']' (writeItems (level + 1) items)
      exact ⟨_, s, hwrite, by decide⟩
  | object fields =>
      obtain ⟨s, hwrite⟩ := hbracket '\x7b' '\x7d' (writeFields (level + 1) fields)
      exact ⟨_, s, hwrite, by decide⟩

/-! ## Reading what is behind a value -/

/-- Holds of a value that is found again, whatever stands behind it. -/
def Value.ReadsBack (v : Value) : Prop :=
  ∀ (level fuel : Nat) (rest : List Char), (v.write level).length ≤ fuel + 1 → EndsValue rest →
    readValue (fuel + 1) (v.write level ++ rest) = some (v, rest)

/-- As much fuel as there is text is enough, since there is some text. -/
theorem Value.ReadsBack.readValue (hv : v.ReadsBack) (hfuel : (v.write level).length ≤ fuel)
    (hrest : EndsValue rest) : readValue fuel (v.write level ++ rest) = some (v, rest) := by
  cases fuel with
  | zero =>
      obtain ⟨c, s, hwrite, -⟩ := exists_write v level
      rw [hwrite] at hfuel
      cases hfuel
  | succ fuel => exact hv level fuel rest hfuel hrest

/-- What is written for the items behind the first one. -/
def moreItems (level : Nat) (items : List (List Char)) : List Char :=
  items.flatMap fun item ↦ ',' :: newLine level ++ item

theorem moreItems_cons (level : Nat) (item : List Char) (items : List (List Char)) :
    moreItems level (item :: items) = ',' :: (newLine level ++ (item ++ moreItems level items)) := by
  simp [moreItems]

theorem bracket_cons (first last : Char) (level : Nat) (item : List Char) (items : List (List Char)) :
    bracket first last level (item :: items) =
      first :: (newLine (level + 1) ++ (item ++ (moreItems (level + 1) items ++
        (newLine level ++ [last])))) := by
  simp [bracket, moreItems]

theorem readItems_last (h : readValue fuel s = some (v, newLine outer ++ ']' :: rest)) :
    readItems (fuel + 1) s = some ([v], rest) := by
  rw [readItems, h]
  dsimp only
  rw [skipSpace_newLine]
  rfl

theorem readItems_more {t : List Char} {items : List Value}
    (h : readValue fuel s = some (v, ',' :: t)) (hmore : readItems fuel t = some (items, rest)) :
    readItems (fuel + 1) s = some (v :: items, rest) := by
  rw [readItems, h]
  change (readItems fuel t).map _ = _
  rw [hmore]
  rfl

/-- The induction is on the items that follow. Each comma pays for the unit of fuel that an item goes
without. -/
theorem readItems_write {items : List Value} (hv : v.ReadsBack) (hitems : ∀ w ∈ items, w.ReadsBack)
    (hfuel : (v.write level ++ moreItems level (writeItems level items)).length < fuel) :
    readItems fuel (v.write level ++ (moreItems level (writeItems level items) ++
      (newLine outer ++ ']' :: rest))) = some (v :: items, rest) := by
  induction items generalizing v fuel with
  | nil =>
      obtain ⟨fuel, rfl⟩ := Nat.exists_eq_succ_of_ne_zero (Nat.ne_zero_of_lt hfuel)
      rw [List.length_append] at hfuel
      exact readItems_last (hv.readValue (by omega) (endsValue_newLine outer _))
  | cons w items ih =>
      rw [List.forall_mem_cons] at hitems
      obtain ⟨fuel, rfl⟩ := Nat.exists_eq_succ_of_ne_zero (Nat.ne_zero_of_lt hfuel)
      rw [writeItems, moreItems_cons, List.length_append, List.length_cons, List.length_append]
        at hfuel
      have hless : (w.write level ++ moreItems level (writeItems level items)).length < fuel := by
        omega
      have hmore := ih hitems.1 hitems.2 hless
      rw [writeItems, moreItems_cons, List.cons_append, List.append_assoc, List.append_assoc]
      apply readItems_more (hv.readValue (by omega) (endsValue_comma _))
      rw [readItems_newLine, hmore]

/-- What is written for one field. -/
def writeField (level : Nat) (f : String × Value) : List Char :=
  writeText f.1.toList ++ ':' :: ' ' :: f.2.write level

theorem writeFields_cons (level : Nat) (f : String × Value) (fields : List (String × Value)) :
    writeFields level (f :: fields) = writeField level f :: writeFields level fields := rfl

/-- What is read behind a field: the end of its object, or the fields that follow. -/
def readBehind (fuel : Nat) (f : String × Value) (s : List Char) :
    Option (List (String × Value) × List Char) :=
  match skipSpace s with
  | '\x7d' :: rest => some ([f], rest)
  | ',' :: rest => (readFields fuel rest).map fun (fields, rest) ↦ (f :: fields, rest)
  | _ => none

theorem readFields_of_field {f : String × Value} (hf : f.2.ReadsBack)
    (hfuel : (f.2.write level).length ≤ fuel) (hrest : EndsValue rest) :
    readFields (fuel + 1) (writeField level f ++ rest) = readBehind fuel f rest := by
  obtain ⟨hwritten, hkey⟩ := readText_writeText f.1.toList (':' :: ' ' :: (f.2.write level ++ rest))
  have hvalue : readValue fuel (' ' :: (f.2.write level ++ rest)) = some (f.2, rest) := by
    have hspace : skipSpace (' ' :: (f.2.write level ++ rest)) =
        skipSpace (f.2.write level ++ rest) := rfl
    rw [readValue_congr hspace]
    exact hf.readValue hfuel hrest
  rw [writeField, List.append_assoc, List.cons_append, List.cons_append, hwritten, readFields,
    skipSpace_of_head (by decide)]
  simp only [doubleQuote] at hkey ⊢
  simp only [hkey, skipSpace_of_head (by decide : isSpace ':' = false), hvalue, String.ofList_toList]
  rfl

theorem readFields_write {f : String × Value} {fields : List (String × Value)} (hf : f.2.ReadsBack)
    (hfields : ∀ g ∈ fields, g.2.ReadsBack)
    (hfuel : (writeField level f ++ moreItems level (writeFields level fields)).length < fuel) :
    readFields fuel (writeField level f ++ (moreItems level (writeFields level fields) ++
      (newLine outer ++ '\x7d' :: rest))) = some (f :: fields, rest) := by
  have hlength (f : String × Value) : (f.2.write level).length ≤ (writeField level f).length := by
    simp [writeField]
    omega
  induction fields generalizing f fuel with
  | nil =>
      obtain ⟨fuel, rfl⟩ := Nat.exists_eq_succ_of_ne_zero (Nat.ne_zero_of_lt hfuel)
      rw [List.length_append] at hfuel
      have := hlength f
      have hshort : (f.2.write level).length ≤ fuel := by omega
      have hread := readFields_of_field hf hshort (endsValue_newLine outer ('\x7d' :: rest))
      rw [readBehind, skipSpace_newLine] at hread
      exact hread
  | cons g fields ih =>
      rw [List.forall_mem_cons] at hfields
      obtain ⟨fuel, rfl⟩ := Nat.exists_eq_succ_of_ne_zero (Nat.ne_zero_of_lt hfuel)
      rw [writeFields_cons, moreItems_cons, List.length_append, List.length_cons,
        List.length_append] at hfuel
      have := hlength f
      have hless : (writeField level g ++ moreItems level (writeFields level fields)).length <
          fuel := by
        omega
      have hmore := ih hfields.1 hfields.2 hless
      rw [writeFields_cons, moreItems_cons, List.cons_append, List.append_assoc, List.append_assoc,
        readFields_of_field hf (by omega) (endsValue_comma _)]
      change (readFields fuel (newLine level ++ _)).map _ = _
      rw [readFields_newLine, hmore]
      rfl

/-! ## Values -/

theorem readsBack_integer (n : Int) : (Value.integer n).ReadsBack := by
  intro level fuel rest _ hrest
  obtain ⟨c, s, hwrite, hc⟩ := exists_writeInteger n
  have hread := readInteger_writeInteger hrest n
  change readValue (fuel + 1) (writeInteger n ++ rest) = _
  rw [hwrite, List.cons_append] at hread ⊢
  rw [readValue, skipSpace_of_head hc.not_space]
  split
  · next heq => exact absurd (List.cons.inj heq).1 (hc.ne (by decide))
  · next heq => exact absurd (List.cons.inj heq).1 (hc.ne (by decide))
  · next heq => exact absurd (List.cons.inj heq).1 (hc.ne (by decide))
  · rw [hc.readWord_eq_none, hread]
    rfl

theorem readsBack_text (s : String) : (Value.text s).ReadsBack := by
  intro level fuel rest _ _
  obtain ⟨hwritten, hread⟩ := readText_writeText s.toList rest
  change readValue (fuel + 1) (writeText s.toList ++ rest) = _
  rw [hwritten, readValue, skipSpace_of_head (by decide)]
  change (readText _ (s.toList.flatMap escapeChar ++ doubleQuote :: rest)).map _ = _
  rw [hread, Option.map_some]
  dsimp only
  rw [String.ofList_toList]

theorem readsBack_list {items : List Value} (h : ∀ v ∈ items, v.ReadsBack) :
    (Value.list items).ReadsBack := by
  intro level fuel rest hfuel hrest
  rw [Value.write] at hfuel ⊢
  cases items with
  | nil => rfl
  | cons v items =>
      rw [List.forall_mem_cons] at h
      rw [writeItems, bracket_cons] at hfuel ⊢
      simp only [List.length_cons, List.length_append] at hfuel
      obtain ⟨c, s, hwrite, hspace, hclose⟩ := exists_write v (level + 1)
      have hless : (v.write (level + 1) ++ moreItems (level + 1) (writeItems (level + 1)
          items)).length < fuel := by
        rw [List.length_append]
        omega
      have hitems : readItems fuel (v.write (level + 1) ++ (moreItems (level + 1) (writeItems
          (level + 1) items) ++ (newLine level ++ ']' :: rest))) = some (v :: items, rest) :=
        readItems_write h.1 h.2 hless
      rw [hwrite] at hitems
      rw [readValue]
      simp only [List.cons_append, List.append_assoc, List.nil_append, skipSpace_newLine, hwrite,
        skipSpace_of_head hspace, skipSpace_of_head (by decide : isSpace '[' = false)] at hitems ⊢
      split
      · next heq => exact absurd (List.cons.inj heq).1 hclose
      · rw [hitems, Option.map_some]

theorem readsBack_object {fields : List (String × Value)} (h : ∀ f ∈ fields, f.2.ReadsBack) :
    (Value.object fields).ReadsBack := by
  intro level fuel rest hfuel hrest
  rw [Value.write] at hfuel ⊢
  cases fields with
  | nil => rfl
  | cons f fields =>
      rw [List.forall_mem_cons] at h
      rw [writeFields_cons, bracket_cons] at hfuel ⊢
      simp only [List.length_cons, List.length_append] at hfuel
      obtain ⟨s, hwrite⟩ : ∃ s, writeField (level + 1) f = doubleQuote :: s := ⟨_, rfl⟩
      have hless : (writeField (level + 1) f ++ moreItems (level + 1) (writeFields (level + 1)
          fields)).length < fuel := by
        rw [List.length_append]
        omega
      have hfields : readFields fuel (writeField (level + 1) f ++ (moreItems (level + 1) (writeFields
          (level + 1) fields) ++ (newLine level ++ '\x7d' :: rest))) = some (f :: fields, rest) :=
        readFields_write h.1 h.2 hless
      rw [hwrite] at hfields
      rw [readValue]
      simp only [List.cons_append, List.append_assoc, List.nil_append, skipSpace_newLine, hwrite,
        skipSpace_of_head (by decide : isSpace doubleQuote = false),
        skipSpace_of_head (by decide : isSpace '\x7b' = false)] at hfields ⊢
      split
      · next heq => exact absurd (List.cons.inj heq).1 (by decide)
      · rw [hfields, Option.map_some]

theorem readsBack (v : Value) : v.ReadsBack := by
  induction v using Value.induction with
  | null => exact fun _ _ _ _ _ ↦ rfl
  | boolean b => cases b <;> exact fun _ _ _ _ _ ↦ rfl
  | integer n => exact readsBack_integer n
  | text s => exact readsBack_text s
  | list items ih => exact readsBack_list ih
  | object fields ih => exact readsBack_object ih

/-- A text that was written stands for the value that it was written for. -/
theorem parse?_toText (v : Value) : parse? v.toText = some v := by
  have hread := readsBack v 0 (v.write 0).length [] (Nat.le_succ _) endsValue_nil
  rw [List.append_nil] at hread
  rw [parse?, Value.toText, String.toList_ofList, hread]
  rfl

end WixAuthoring.Json
