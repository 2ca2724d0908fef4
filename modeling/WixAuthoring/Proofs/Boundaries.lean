import WixAuthoring.Proofs.Pipeline

namespace WixAuthoring

/-!
# Manifests in two parts

A line feed ends whatever stands before it, a line and an unfinished character alike. So a manifest
that is cut behind a line feed can be read in two parts, and the first part with a version decides.
-/

namespace Utf8

def lineFeed : UInt8 := 0x0A

/-- Holds of a state in which the next byte has to be a continuation byte. -/
def Expects (state : Option Unfinished) : Prop := ∀ u ∈ state, 0x80 ≤ u.low

theorem expects_start? (b : UInt8) : Expects (Unfinished.start? b) := by
  intro u hu
  rw [Unfinished.start?] at hu
  split at hu
  · obtain rfl := Option.some.inj hu
    exact UInt8.le_refl _
  -- each of the other first bytes has a bound of its own, none of them below 0x80
  iterate 6
    split at hu
    · obtain rfl := Option.some.inj hu
      dsimp only
      decide
  cases hu

theorem expects_begin (b : UInt8) : Expects (begin b).2 := by
  rw [begin]
  split
  · exact fun _ h ↦ nomatch h
  · split
    · next u hu => exact hu ▸ expects_start? b
    · exact fun _ h ↦ nomatch h

theorem expects_step (state : Option Unfinished) (b : UInt8) : Expects (step state b).2 := by
  fun_cases step state b with
  | case1 => exact expects_begin b
  | case2 => exact fun _ h ↦ nomatch h
  | case3 =>
      intro u hu
      obtain rfl := Option.some.inj hu
      exact UInt8.le_refl _
  | case4 => exact expects_begin b

/-- A line feed is read for itself, and what is unfinished before it is ill-formed. -/
theorem step_lineFeed {state : Option Unfinished} (h : Expects state) :
    step state lineFeed = (piecesFrom state [] ++ [.char '\n'], none) := by
  cases state with
  | none => rfl
  | some u =>
      have hlow : (0x80 : UInt8) ≤ u.low := h u rfl
      have haccepts : u.accepts lineFeed = false := by
        have hless : ¬u.low ≤ lineFeed := fun hle ↦
          absurd (UInt8.le_trans hlow hle) (by decide)
        simp [Unfinished.accepts, hless]
      rw [step, haccepts]
      rfl

theorem piecesFrom_append_lineFeed {state : Option Unfinished} (h : Expects state)
    (p r : List UInt8) :
    piecesFrom state (p ++ lineFeed :: r) = piecesFrom state p ++ .char '\n' :: pieces r := by
  induction p generalizing state with
  | nil =>
      rw [List.nil_append, piecesFrom, step_lineFeed h, List.append_assoc, pieces]
      rfl
  | cons b p ih =>
      rw [List.cons_append, piecesFrom, piecesFrom, ih (expects_step state b), List.append_assoc]

theorem decodeLossy_append_lineFeed (p r : List UInt8) :
    decodeLossy (p ++ lineFeed :: r) = decodeLossy p ++ '\n' :: decodeLossy r := by
  have hstart : Expects none := fun _ h ↦ nomatch h
  rw [decodeLossy, pieces, piecesFrom_append_lineFeed hstart, List.map_append, List.map_cons]
  rfl

/-- A line feed is no part of a mark, so what stands before it tells whether there is one. -/
theorem exists_withoutMark (p : List UInt8) :
    ∃ q, ∀ r, withoutMark (p ++ lineFeed :: r) = q ++ lineFeed :: r := by
  by_cases hmark : byteOrderMark <+: p
  · obtain ⟨q, rfl⟩ := hmark
    exact ⟨q, fun r ↦ by simp [withoutMark, byteOrderMark]⟩
  · refine ⟨p, fun r ↦ ?_⟩
    match p with
    | [] | [a] | [a, b] => simp [withoutMark, byteOrderMark, lineFeed]
    | a :: b :: c :: p => simp_all [withoutMark, byteOrderMark]

end Utf8

namespace Text

theorem lines_return {c : Char} (hc : c ≠ '\n') (s : List Char) :
    lines ('\r' :: c :: s) = [] :: lines (c :: s) := by
  rw [lines]
  rintro _ heq
  exact hc (List.cons.inj heq).1

theorem lines_cons {c : Char} (hreturn : c ≠ '\r') (hfeed : c ≠ '\n') (s : List Char) :
    lines (c :: s) = (lines s).modifyHead (c :: ·) := by
  rw [lines.eq_def]
  cases h : lines s <;> simp_all [lines_ne_nil]

/-- The lines before a line feed are the same, whatever comes behind it. -/
theorem exists_lines (s : List Char) :
    ∃ line before, ∀ t, lines (s ++ '\n' :: t) = line :: before ++ lines t := by
  fun_induction lines s with
  | case1 => exact ⟨[], [], fun t ↦ rfl⟩
  | case2 s ih | case4 s ih =>
      obtain ⟨line, before, hlines⟩ := ih
      exact ⟨[], line :: before, fun t ↦ congrArg ([] :: ·) (hlines t)⟩
  | case3 s h ih =>
      -- a return at the end makes one line end with the line feed, any other return is one by itself
      cases s with
      | nil => exact ⟨[], [], fun t ↦ rfl⟩
      | cons c s =>
          obtain ⟨line, before, hlines⟩ := ih
          have hc : c ≠ '\n' := fun hc ↦ h s (congrArg (· :: s) hc)
          refine ⟨[], line :: before, fun t ↦ ?_⟩
          exact (lines_return hc _).trans (congrArg ([] :: ·) (hlines t))
  | case5 c s _ hreturn hfeed _ ih | case6 c s _ hreturn hfeed _ _ _ ih =>
      obtain ⟨line, before, hlines⟩ := ih
      refine ⟨c :: line, before, fun t ↦ ?_⟩
      rw [List.cons_append, lines_cons hreturn hfeed, hlines]
      rfl

end Text

namespace Manifest

open Text Utf8

theorem versionOfChars_append_lineFeed (s t : List Char) :
    versionOfChars (s ++ '\n' :: t) = (versionOfChars (s ++ ['\n'])).or (versionOfChars t) := by
  obtain ⟨line, before, hlines⟩ := exists_lines s
  have hlast : versionOfLine [] = none := rfl
  simp only [versionOfChars, hlines, lines, List.findSome?_append, List.findSome?_cons,
    List.findSome?_nil, hlast, Option.or_none]

/-- A text that ends within the mark is no text, and had it been one it would assign nothing. -/
theorem versionToken_of_unmarked {r : List UInt8} (h : ¬byteOrderMark <+: r) :
    versionToken r = (versionOfChars (decodeLossy r)).map String.ofList := by
  rw [versionToken, withoutMark]
  split
  · next hshort =>
    obtain ⟨hlength, hwithin⟩ := Bool.and_eq_true_iff.1 hshort
    match r with
    | [] => rfl
    | [a] =>
        obtain rfl : a = 0xEF := by simpa [byteOrderMark] using hwithin
        rfl
    | [a, b] =>
        obtain ⟨rfl, rfl⟩ : a = 0xEF ∧ b = 0xBB := by simpa [byteOrderMark] using hwithin
        rfl
  · rw [if_neg (by simpa using h)]

theorem versionToken_append {p r : List UInt8} (hfeed : p.getLast? = some lineFeed)
    (hmark : ¬byteOrderMark <+: r) :
    versionToken (p ++ r) = (versionToken p).or (versionToken r) := by
  obtain ⟨before, rfl⟩ := List.getLast?_eq_some_iff.1 hfeed
  obtain ⟨q, hq⟩ := exists_withoutMark before
  have hwhole : versionToken (before ++ lineFeed :: r) =
      (versionOfChars (decodeLossy q ++ '\n' :: decodeLossy r)).map String.ofList := by
    rw [versionToken, hq, decodeLossy_append_lineFeed]
  have hfirst : versionToken (before ++ [lineFeed]) =
      (versionOfChars (decodeLossy q ++ ['\n'])).map String.ofList := by
    rw [versionToken, hq, decodeLossy_append_lineFeed, decodeLossy_nil]
  rw [List.append_assoc, List.singleton_append, hwhole, hfirst, versionToken_of_unmarked hmark,
    versionOfChars_append_lineFeed, Option.map_or]

/-- The first part that has a version decides, whatever bytes the two parts are made of, and reading
a manifest fails only where its file cannot be read. -/
theorem versionToken_first :
    (∀ p r : List UInt8, p.getLast? = some lineFeed → ¬byteOrderMark <+: r →
      versionToken (p ++ r) = (versionToken p).or (versionToken r)) ∧
    ∀ (m : Machine) (path : String) (content : List UInt8),
      m.store.read m.here path = .ok content →
      (do return versionToken (← Machine.load path) : Job (Option String)) m =
        (.ok (versionToken content), m) := by
  refine ⟨fun p r ↦ versionToken_append, fun m path content hread ↦ ?_⟩
  have hload : Machine.load path m = (.ok content, m) := by
    rw [Machine.load_apply, hread]
    rfl
  exact Action.bind_of_ok hload

/-- A mark, a line that ends in a carriage return alone, and a character that is cut off. -/
def damagedHeader : List UInt8 :=
  byteOrderMark ++ Utf8.encode "[package]\rname = \"" ++ [0xE2, 0x82, lineFeed]

theorem versionToken_first_damagedHeader :
    versionToken (damagedHeader ++ Program.versionLine "1.2.3") = some "1.2.3" ∧
      (do return versionToken (← Machine.load (Path.parse "Cargo.toml").text) : Job (Option String))
          (Program.manifestOnly damagedHeader []) =
        (.ok (versionToken damagedHeader), Program.manifestOnly damagedHeader []) := by
  refine ⟨?_, versionToken_first.2 _ _ _ (Program.manifestOnly_read _ _)⟩
  rw [versionToken_first.1 damagedHeader _ (by decide +kernel) (by decide +kernel),
    Program.versionToken_versionLine]
  have hnone : versionToken damagedHeader = none := by decide +kernel
  rw [hnone, Option.none_or]

end Manifest

end WixAuthoring
