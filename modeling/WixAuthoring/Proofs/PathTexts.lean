import WixAuthoring.Proofs.Growth
import WixAuthoring.Proofs.Texts
import Mathlib.Data.String.Basic

namespace WixAuthoring

/-!
# The text of a path

A path is written out without the names that say nothing, and with one slash between the others.
That makes it no longer than it was given, and it leads where it led.
-/

namespace Text

variable {separates : Char → Bool} {c : Char}

theorem consToFirst_append {pieces : List (List Char)} (h : pieces ≠ []) (more : List (List Char)) :
    consToFirst c (pieces ++ more) = consToFirst c pieces ++ more := by
  cases pieces with
  | nil => exact absurd rfl h
  | cons piece pieces => rfl

theorem splitChars_append_separator (hc : separates c = true) (s t : List Char) :
    splitChars separates (s ++ c :: t) = splitChars separates s ++ splitChars separates t := by
  induction s with
  | nil => simp [splitChars, hc]
  | cons d s ih =>
      rw [List.cons_append, splitChars, splitChars, ih]
      split
      · rfl
      · exact consToFirst_append (splitChars_ne_nil separates s) _

theorem toList_join_cons (separator s : String) {l : List String} (h : l ≠ []) :
    (join separator (s :: l)).toList =
      s.toList ++ separator.toList ++ (join separator l).toList := by
  cases l with
  | nil => exact absurd rfl h
  | cons t l => rw [join, String.toList_append, String.toList_append]

theorem join_filter_sublist (separator : String) (p : String → Bool) (l : List String) :
    (join separator (l.filter p)).toList.Sublist (join separator l).toList := by
  induction l with
  | nil => exact .slnil
  | cons s l ih =>
      by_cases hl : l = []
      · subst hl
        by_cases hs : p s = true <;> simp [hs, join]
      rw [toList_join_cons separator s hl]
      by_cases hs : p s = true
      · rw [List.filter_cons_of_pos hs]
        by_cases hrest : l.filter p = []
        · rw [hrest, List.append_assoc]
          exact List.sublist_append_left s.toList _
        · rw [toList_join_cons separator s hrest]
          exact ih.append_left _
      · rw [List.filter_cons_of_neg hs]
        exact ih.trans (List.sublist_append_right _ _)

end Text

namespace Path

open Text

variable {p : Path} {name s : String}

/-! ## The names of a path -/

theorem split_eq_singleton (h : '/' ∉ s.toList) : split isSlash s = [s] := by
  have hsplit : splitChars isSlash s.toList = [s.toList] := by
    apply splitChars_of_none
    intro c hc
    rw [isSlash, beq_eq_false_iff_ne]
    rintro rfl
    exact h hc
  rw [split, hsplit, List.map_singleton, String.ofList_toList]

theorem names_eq_singleton (hname : isName s = true) (h : '/' ∉ s.toList) :
    names isSlash s = [s] := by
  rw [names, split_eq_singleton h]
  simp [hname]

theorem slash_not_mem_of_mem_names (h : name ∈ names isSlash s) : '/' ∉ name.toList := by
  intro hslash
  obtain ⟨piece, hpiece, rfl⟩ := List.mem_map.1 (List.mem_filter.1 h).1
  rw [String.toList_ofList] at hslash
  exact absurd (Xml.mem_of_mem_splitChars hpiece hslash).2 (by decide)

theorem split_append_slash (s t : String) :
    split isSlash (s ++ "/" ++ t) = split isSlash s ++ split isSlash t := by
  have hchars : (s ++ "/" ++ t).toList = s.toList ++ '/' :: t.toList := by simp
  rw [split, hchars, splitChars_append_separator rfl, List.map_append]
  rfl

theorem names_append_slash (s t : String) :
    names isSlash (s ++ "/" ++ t) = names isSlash s ++ names isSlash t := by
  rw [names, split_append_slash, List.filter_append]
  rfl

theorem toList_join_splitChars (s : List Char) :
    (join "/" ((splitChars isSlash s).map String.ofList)).toList = s := by
  induction s with
  | nil => rfl
  | cons c s ih =>
      cases hpieces : splitChars isSlash s with
      | nil => exact absurd hpieces (splitChars_ne_nil isSlash s)
      | cons piece pieces =>
          rw [hpieces] at ih
          rw [splitChars, hpieces]
          split
          · next hc =>
              obtain rfl : c = '/' := by simpa [isSlash] using hc
              rw [List.map_cons, toList_join_cons "/" _ (by simp), ih]
              rfl
          · cases pieces with
            | nil =>
                rw [List.map_singleton, join, String.toList_ofList] at ih
                rw [consToFirst, List.map_singleton, join, String.toList_ofList, ih]
            | cons next pieces =>
                rw [List.map_cons, toList_join_cons "/" _ (by simp), String.toList_ofList] at ih
                rw [consToFirst, List.map_cons, toList_join_cons "/" _ (by simp),
                  String.toList_ofList, List.cons_append, List.cons_append, ih]

/-- The names of a text with slashes between them are no longer than the text. -/
theorem join_names_sublist (s : String) : (join "/" (names isSlash s)).toList.Sublist s.toList := by
  have hsublist := join_filter_sublist "/" isName (split isSlash s)
  rwa [split, toList_join_splitChars] at hsublist

theorem split_join {l : List String} (hl : l ≠ []) (h : ∀ name ∈ l, '/' ∉ name.toList) :
    split isSlash (join "/" l) = l := by
  induction l with
  | nil => exact absurd rfl hl
  | cons name l ih =>
      rw [List.forall_mem_cons] at h
      cases l with
      | nil => exact split_eq_singleton h.1
      | cons other l =>
          rw [join, split_append_slash, split_eq_singleton h.1, ih (by simp) h.2]
          rfl

theorem child_of_relative (h : anchorOf s.toList = .relative) :
    p.child s = ⟨p.anchor, p.parts ++ names isSlash s⟩ := by
  change append p (parse s) = _
  rw [append, parse, h]

/-! ## Paths that are written out -/

/-- Holds of a path as it is read: none of its names says nothing or holds a slash. -/
def IsClean (p : Path) : Prop := ∀ name ∈ p.parts, isName name = true ∧ '/' ∉ name.toList

theorem isClean_parse (s : String) : (parse s).IsClean := fun _ h ↦
  ⟨(List.mem_filter.1 h).2, slash_not_mem_of_mem_names h⟩

theorem split_slash_append (s : String) : split isSlash ("/" ++ s) = "" :: split isSlash s := by
  have hsplit := split_append_slash "" s
  rwa [String.empty_append] at hsplit

theorem exists_split_join (h : p.IsClean) : ∃ front,
    split isSlash (join "/" p.parts) = front ++ p.parts ∧ ∀ name ∈ front, name = "" := by
  by_cases hparts : p.parts = []
  · rw [hparts]
    exact ⟨[""], rfl, by simp⟩
  · exact ⟨[], split_join hparts fun name hname ↦ (h name hname).2, by simp⟩

/-- Walking the text of a path, nothing but names that say nothing come before its own. -/
theorem exists_segments_text (h : p.IsClean) : ∃ front,
    Store.segments p.text = front ++ p.parts ∧ ∀ name ∈ front, name = "" ∨ name = "." := by
  obtain ⟨front, hfront, hempty⟩ := exists_split_join h
  have hsilent : ∀ name ∈ front, name = "" ∨ name = "." := fun name hname ↦
    .inl (hempty name hname)
  rw [Store.segments, text]
  split
  · split
    · next hparts =>
        rw [hparts]
        exact ⟨["."], rfl, by simp⟩
    · exact ⟨front, hfront, hsilent⟩
  · refine ⟨"" :: front, ?_, List.forall_mem_cons.2 ⟨.inl rfl, hsilent⟩⟩
    rw [split_slash_append, hfront]
    rfl
  · refine ⟨"" :: "" :: front, ?_,
      List.forall_mem_cons.2 ⟨.inl rfl, List.forall_mem_cons.2 ⟨.inl rfl, hsilent⟩⟩⟩
    have htwo : "//" ++ join "/" p.parts = "/" ++ ("/" ++ join "/" p.parts) := by
      rw [← String.append_assoc]
      rfl
    rw [htwo, split_slash_append, split_slash_append, hfront]
    rfl

/-! ## Paths that are read and written out again -/

theorem anchorOf_cases (s : List Char) :
    (anchorOf s = .relative ∧ s.head? ≠ some '/') ∨ (anchorOf s = .root ∧ ∃ t, s = '/' :: t) ∨
      (anchorOf s = .doubleRoot ∧ ∃ t, s = '/' :: '/' :: t) := by
  unfold anchorOf
  split
  · exact .inr (.inl ⟨rfl, _, rfl⟩)
  · exact .inr (.inr ⟨rfl, _, rfl⟩)
  · exact .inr (.inl ⟨rfl, _, rfl⟩)
  · next hslash =>
      refine .inl ⟨rfl, fun hhead ↦ ?_⟩
      obtain ⟨t, rfl⟩ := List.head?_eq_some_iff.1 hhead
      exact hslash t rfl

theorem join_names_sublist_of_slash {s : String} {t : List Char} (h : s.toList = '/' :: t) :
    (join "/" (names isSlash s)).toList.Sublist t := by
  have hs : s = "" ++ "/" ++ String.ofList t := by
    rw [← String.toList_inj, h]
    simp
  have hnames : names isSlash s = names isSlash (String.ofList t) := by
    rw [hs, names_append_slash]
    rfl
  have hsublist := join_names_sublist (String.ofList t)
  rwa [← hnames, String.toList_ofList] at hsublist

theorem join_names_sublist_of_slashes {s : String} {t : List Char}
    (h : s.toList = '/' :: '/' :: t) :
    (join "/" (names isSlash s)).toList.Sublist t := by
  have hs : s = "" ++ "/" ++ String.ofList ('/' :: t) := by
    rw [← String.toList_inj, h]
    simp
  have hnames : names isSlash s = names isSlash (String.ofList ('/' :: t)) := by
    rw [hs, names_append_slash]
    rfl
  rw [hnames]
  exact join_names_sublist_of_slash (String.toList_ofList)

/-- Writing a path out again leaves characters away, and puts none in. -/
theorem text_parse_sublist (hparts : (parse s).parts ≠ []) :
    (parse s).text.toList.Sublist s.toList := by
  change names isSlash s ≠ [] at hparts
  rw [parse, text]
  rcases anchorOf_cases s.toList with ⟨hanchor, -⟩ | ⟨hanchor, t, hs⟩ | ⟨hanchor, t, hs⟩
  · rw [hanchor]
    dsimp only
    rw [if_neg hparts]
    exact join_names_sublist s
  · rw [hanchor]
    dsimp only
    rw [String.toList_append, hs]
    exact (join_names_sublist_of_slash hs).cons_cons '/'
  · rw [hanchor]
    dsimp only
    rw [String.toList_append, hs]
    exact ((join_names_sublist_of_slashes hs).cons_cons '/').cons_cons '/'

theorem head?_join_ne_slash {l : List String}
    (h : ∀ name ∈ l, isName name = true ∧ '/' ∉ name.toList) :
    (join "/" l).toList.head? ≠ some '/' := by
  intro hhead
  cases l with
  | nil => cases hhead
  | cons name l =>
      obtain ⟨hname, hslash⟩ := h name (by simp)
      have hne : name.toList ≠ [] := by
        intro hempty
        simp [isName, String.toList_eq_nil_iff.1 hempty] at hname
      have hfirst : (join "/" (name :: l)).toList.head? = name.toList.head? := by
        cases l with
        | nil => rfl
        | cons other l =>
            rw [toList_join_cons "/" name (by simp), List.append_assoc,
              List.head?_append_of_ne_nil _ hne]
      rw [hfirst] at hhead
      exact hslash (List.mem_of_mem_head? hhead)

/-- Writing a path out again keeps where it begins. -/
theorem isAnchored_text_parse (s : String) :
    Store.isAnchored (parse s).text = Store.isAnchored s := by
  rw [Store.isAnchored, Store.isAnchored, parse, text]
  rcases anchorOf_cases s.toList with ⟨hanchor, hhead⟩ | ⟨hanchor, t, hs⟩ | ⟨hanchor, t, hs⟩
  · have hjoin := head?_join_ne_slash (isClean_parse s)
    rw [hanchor, beq_eq_false_iff_ne.2 hhead]
    dsimp only
    split
    · rfl
    · exact beq_eq_false_iff_ne.2 hjoin
  · rw [hanchor, hs, String.toList_append]
    rfl
  · rw [hanchor, hs, String.toList_append]
    rfl

end Path

namespace Store

variable {s : Store} {links : Nat} {here : Location} {names fewer rest front : List String}
  {d : Destination} {path : String}

theorem holdsNull_of_sublist {path other : String} (h : other.toList.Sublist path.toList)
    (hpath : holdsNull path = false) : holdsNull other = false := by
  rw [holdsNull, Bool.eq_false_iff, ne_eq, List.contains_iff_mem] at hpath ⊢
  exact fun hother ↦ hpath (h.subset hother)

theorem utf8ByteSize_le_of_sublist {path other : String} (h : other.toList.Sublist path.toList) :
    other.utf8ByteSize ≤ path.utf8ByteSize := by
  have hlen := String.utf8Len_le_of_sublist h
  rwa [← String.utf8ByteSize_ofList, ← String.utf8ByteSize_ofList, String.ofList_toList,
    String.ofList_toList] at hlen

theorem isWalkable_text_parse (h : IsWalkable path) : IsWalkable (Path.parse path).text := by
  by_cases hparts : (Path.parse path).parts = []
  · rw [Path.text, hparts]
    split <;> decide
  · have hsublist := Path.text_parse_sublist hparts
    have hempty : (Path.parse path).text ≠ "" := by
      intro hempty
      obtain ⟨name, hmem⟩ := List.exists_mem_of_ne_nil _ hparts
      obtain ⟨front, hfront, -⟩ := Path.exists_segments_text (Path.isClean_parse path)
      have hname : name ∈ segments (Path.parse path).text := by
        rw [hfront]
        exact List.mem_append_right front hmem
      rw [hempty] at hname
      obtain rfl := List.mem_singleton.1 hname
      exact absurd (Path.isClean_parse path _ hmem).1 (by decide)
    exact ⟨holdsNull_of_sublist hsublist h.noNull, hempty,
      (utf8ByteSize_le_of_sublist hsublist).trans h.short⟩

/-! ## Walks without the names that say nothing -/

/-- Holds when the second list is the first one without some of the names that say nothing. -/
inductive Thins : List String → List String → Prop
  | nil : Thins [] []
  | keep (name : String) {names fewer : List String} (h : Thins names fewer) :
      Thins (name :: names) (name :: fewer)
  | drop {name : String} {names fewer : List String} (hname : name = "" ∨ name = ".")
      (h : Thins names fewer) : Thins (name :: names) fewer

theorem Thins.append_left (front : List String) (h : Thins names fewer) :
    Thins (front ++ names) (front ++ fewer) := by
  induction front with
  | nil => exact h
  | cons name front ih => exact .keep name ih

theorem thins_filter (names : List String) : Thins names (names.filter Path.isName) := by
  induction names with
  | nil => exact .nil
  | cons name names ih =>
      by_cases hname : Path.isName name = true
      · rw [List.filter_cons_of_pos hname]
        exact .keep name ih
      · rw [List.filter_cons_of_neg hname]
        exact .drop (or_iff_not_imp_left.2 (by simpa [Path.isName] using hname)) ih

theorem LooksUp.not_silent {purpose : Purpose} {name : String} (h : LooksUp purpose name rest) :
    ¬ (name = "" ∨ name = ".") :=
  not_or.2 ⟨h.ne_empty, h.ne_dot⟩

theorem LooksUp.before {name : String} (h : LooksUp .look name rest) (fewer : List String) :
    LooksUp .look name fewer :=
  { h with unslashed := fun hwrite ↦ by cases hwrite }

/-- Whoever looks arrives without the names that say nothing where he arrives with them. The
converse fails: a slash behind a file leads nowhere. -/
theorem Arrives.thin (h : Arrives s .look links here names d) (hthin : Thins names fewer) :
    Arrives s .look links here fewer d := by
  induction h generalizing fewer with
  | stay links here =>
      cases hthin
      exact .stay links here
  | skip hname _ ih =>
      cases hthin with
      | keep _ hthin => exact .skip hname (ih hthin)
      | drop _ hthin => exact ih hthin
  | up _ ih =>
      cases hthin with
      | keep _ hthin => exact .up (ih hthin)
      | drop hname _ => exact absurd hname (by decide)
  | vacant links hname hget =>
      cases hthin with
      | keep _ hthin =>
          cases hthin
          exact .vacant links hname hget
      | drop hsilent _ => exact absurd hsilent hname.not_silent
  | into hname hget _ ih =>
      cases hthin with
      | keep _ hthin => exact .into (hname.before _) hget (ih hthin)
      | drop hsilent _ => exact absurd hsilent hname.not_silent
  | follow hname hget _ _ ih =>
      cases hthin with
      -- the names of the target are walked as they are, in front of what is left
      | keep _ hthin => exact .follow (hname.before _) hget (by simp) (ih (hthin.append_left _))
      | drop hsilent _ => exact absurd hsilent hname.not_silent
  | link _ _ _ hstops => cases hstops
  | leaf links hname hget hdirectory hlink =>
      cases hthin with
      | keep _ hthin =>
          cases hthin
          exact .leaf links hname hget hdirectory hlink
      | drop hsilent _ => exact absurd hsilent hname.not_silent

theorem Arrives.skip_all {purpose : Purpose} (h : Arrives s purpose links here names d)
    (hfront : ∀ name ∈ front, name = "" ∨ name = ".") :
    Arrives s purpose links here (front ++ names) d := by
  induction front with
  | nil => exact h
  | cons name front ih =>
      rw [List.forall_mem_cons] at hfront
      exact .skip hfront.1 (ih hfront.2)

/-- A path that is read and written out again leads where it led. -/
theorem locate_text_parse (h : s.locate here .look path = .ok d) :
    s.locate here .look (Path.parse path).text = .ok d := by
  obtain ⟨hpath, harrives⟩ := locate_eq_ok_iff.1 h
  obtain ⟨front, hsegments, hfront⟩ := Path.exists_segments_text (Path.isClean_parse path)
  have horigin : origin here (Path.parse path).text = origin here path := by
    rw [origin, origin, Path.isAnchored_text_parse]
  rw [locate_eq_ok_iff, horigin, hsegments]
  exact ⟨isWalkable_text_parse hpath, (harrives.thin (thins_filter _)).skip_all hfront⟩

end Store

end WixAuthoring
