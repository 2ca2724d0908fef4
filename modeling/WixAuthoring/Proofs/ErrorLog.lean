import WixAuthoring.Proofs.Boundaries
import WixAuthoring.Proofs.Decimals

namespace WixAuthoring

/-!
# The log of errors

Each error that is logged adds its own text to the end of the log, and what is there already stays.
The text of an error is one line when its message is, and only then.
-/

namespace Text

variable {c : Char} {s t : List Char}

/-- Holds of a text with no end of a line in it. -/
def IsOneLine (s : List Char) : Prop := '\n' ∉ s ∧ '\r' ∉ s

instance : Decidable (IsOneLine s) := inferInstanceAs (Decidable (_ ∧ _))

theorem isOneLine_append : IsOneLine (s ++ t) ↔ IsOneLine s ∧ IsOneLine t := by
  simp only [IsOneLine, List.mem_append, not_or]
  tauto

theorem isOneLine_cons : IsOneLine (c :: s) ↔ (c ≠ '\n' ∧ c ≠ '\r') ∧ IsOneLine s := by
  simp only [IsOneLine, List.mem_cons, not_or, ne_comm]
  tauto

theorem IsOneLine.of_digits (h : ∀ c ∈ s, isDigit c = true) : IsOneLine s := by
  constructor
  · exact fun hmem ↦ absurd (h _ hmem) (by decide)
  · exact fun hmem ↦ absurd (h _ hmem) (by decide)

theorem lines_append_lineFeed (h : IsOneLine s) (t : List Char) :
    lines (s ++ '\n' :: t) = s :: lines t := by
  induction s with
  | nil => rfl
  | cons c s ih =>
      obtain ⟨⟨hfeed, hreturn⟩, hs⟩ := isOneLine_cons.1 h
      rw [List.cons_append, lines_cons hreturn hfeed, ih hs]
      rfl

theorem isOneLine_of_mem_lines (h : t ∈ lines s) : IsOneLine t := by
  induction s using lines.induct generalizing t with
  | case1 =>
      obtain rfl := List.mem_singleton.1 h
      decide
  | case2 s ih | case4 s ih =>
      rcases List.mem_cons.1 h with rfl | h
      · decide
      · exact ih h
  | case3 s hs ih =>
      rw [lines] at h
      · rcases List.mem_cons.1 h with rfl | h
        · decide
        · exact ih h
      · exact hs
  | case5 c s hfirst hreturn hfeed hlines ih => exact absurd hlines (lines_ne_nil s)
  | case6 c s hfirst hreturn hfeed line rest hlines ih =>
      rw [lines_cons hreturn hfeed, hlines] at h
      rcases List.mem_cons.1 h with rfl | h
      · exact isOneLine_cons.2 ⟨⟨hfeed, hreturn⟩, ih (hlines ▸ List.mem_cons_self)⟩
      · exact ih (hlines ▸ List.mem_cons_of_mem _ h)

end Text

namespace Journal

open Machine Store Text

variable {m : Machine} {old : List UInt8} {t : Moment} {message : String}

/-! ## The text of an error -/

/-- The text of an error, without the end of its line. -/
def entryText (e : Moment × String) : List Char := ("[" ++ stamp e.1 ++ "] ERROR: " ++ e.2).toList

theorem toList_errorLine (t : Moment) (message : String) :
    (errorLine t message).toList = entryText (t, message) ++ ['\n'] := by
  rw [errorLine, entryText, String.toList_append]
  rfl

theorem isOneLine_padded (width n : Nat) : IsOneLine (padded width n).toList := by
  apply IsOneLine.of_digits
  intro c hc
  rw [padded, String.toList_ofList, List.leftpad, List.mem_append] at hc
  rcases hc with hc | hc
  · rw [List.eq_of_mem_replicate hc]
    rfl
  · exact isDigit_of_mem_repr hc

theorem isOneLine_stamp (t : Moment) : IsOneLine (stamp t).toList := by
  have hyear : IsOneLine (toString t.year).toList := .of_digits fun c hc ↦ isDigit_of_mem_repr hc
  simp only [stamp, dayText, timeText, String.toList_append, isOneLine_append, isOneLine_padded,
    hyear, and_true, true_and]
  decide

theorem isOneLine_entryText (e : Moment × String) :
    IsOneLine (entryText e) ↔ IsOneLine e.2.toList := by
  simp only [entryText, String.toList_append, isOneLine_append, isOneLine_stamp, and_true]
  exact and_iff_right (by decide)

/-- The text that errors add to the log, one after the other. -/
def errorLines : List (Moment × String) → String
  | [] => ""
  | (t, message) :: later => errorLine t message ++ errorLines later

/-- The text of errors has one line for each of them if and only if each message is one line. -/
theorem lines_errorLines_iff (entries : List (Moment × String)) :
    lines (errorLines entries).toList = entries.map entryText ++ [[]] ↔
      ∀ e ∈ entries, IsOneLine e.2.toList := by
  constructor
  · intro h e he
    rw [← isOneLine_entryText]
    apply isOneLine_of_mem_lines (s := (errorLines entries).toList)
    rw [h]
    exact List.mem_append_left _ (List.mem_map_of_mem he)
  · intro h
    induction entries with
    | nil => rfl
    | cons e entries ih =>
        rw [List.forall_mem_cons] at h
        rw [errorLines, String.toList_append, toList_errorLine, List.append_assoc,
          List.singleton_append, lines_append_lineFeed ((isOneLine_entryText e).2 h.1), ih h.2]
        rfl

/-! ## The file -/

/-- Holds when the directory of the log is there or can be made, and the log can then be written, with
what is in it so far. A log that is not there yet is empty. -/
def Accepts (m : Machine) (old : List UInt8) : Prop :=
  ∃ s place executable,
    Disk.ensureDirectory m.here (errorPath m.environment).parent m.store = (Except.ok (), s) ∧
    s.Opens m.here (errorPath m.environment).text place old executable

/-- What is in the log already is what can be read there. -/
theorem Accepts.read (h : Accepts m old) {content : List UInt8}
    (hread : m.store.read m.here (errorPath m.environment).text = .ok content) : content = old := by
  obtain ⟨s, place, executable, hensure, hopens⟩ := h
  obtain ⟨hmakes, -⟩ := Disk.ensureDirectory_eq_ok hensure
  exact hopens.eq_of_read (hmakes.read hread)

/-- One error adds its text to the end of the log and does nothing else. -/
theorem error_of_accepts (h : Accepts m old) (message : String) : ∃ s,
    error message m = ((), m.withStore s) ∧
    s.read m.here (errorPath m.environment).text =
      .ok (old ++ Utf8.encode (errorLine m.now message)) ∧
    Accepts (m.withStore s) (old ++ Utf8.encode (errorLine m.now message)) := by
  obtain ⟨u, place, executable, hensure, hopens⟩ := h
  obtain ⟨-, hthere⟩ := Disk.ensureDirectory_eq_ok hensure
  let new := old ++ Utf8.encode (errorLine m.now message)
  have happend : Disk.append m.here (errorPath m.environment)
      (Utf8.encode (errorLine m.now message)) m.store =
        (Except.ok (), u.put place (.file new executable)) := by
    rw [Disk.append_eq_rewrite, Disk.rewrite, Action.bind_of_ok hensure]
    exact Disk.revise_of_opens hopens _
  refine ⟨u.put place (.file new executable), ?_, ?_, ?_⟩
  · obtain ⟨r, s, hdisk, hextend⟩ :=
      extend_apply (errorPath m.environment) (errorLine m.now message) m
    obtain ⟨rfl, rfl⟩ := Prod.mk.inj (happend.symm.trans hdisk)
    rw [error, attempt_apply, writeError_apply, hextend]
    rfl
  · rw [Store.read, hopens.locate_look_put]
  · exact ⟨_, place, executable,
      Disk.ensureDirectory_of_isDirectory (isDirectory_of_grows (hopens.grows_put new) hthere),
      .old (hopens.locate_put new)⟩

/-- The machine after errors have been logged, each at its moment. -/
def logged (m : Machine) : List (Moment × String) → Machine
  | [] => m
  | (t, message) :: later => logged (error message { m with now := t }).2 later

/-- By induction on the errors: the log goes on accepting errors, and grows by the text of each. -/
theorem logged_of_accepts (h : Accepts m old) (entries : List (Moment × String)) :
    ∃ s now, logged m entries = { m with store := s, now := now } ∧
      Accepts (logged m entries) (old ++ Utf8.encode (errorLines entries)) ∧
      (entries ≠ [] → s.read m.here (errorPath m.environment).text =
        .ok (old ++ Utf8.encode (errorLines entries))) := by
  induction entries generalizing m old with
  | nil =>
      have hempty : Utf8.encode (errorLines []) = [] := rfl
      refine ⟨m.store, m.now, rfl, ?_, absurd rfl⟩
      rw [hempty, List.append_nil]
      exact h
  | cons e entries ih =>
      obtain ⟨t, message⟩ := e
      have hnow : Accepts { m with now := t } old := h
      obtain ⟨u, herror, hread, haccepts⟩ := error_of_accepts hnow message
      obtain ⟨s, now, hlogged, hlast, hreads⟩ := ih haccepts
      have hstep : logged m ((t, message) :: entries) =
          logged (({ m with now := t } : Machine).withStore u) entries := by
        rw [logged, herror]
      rw [List.append_assoc, ← Utf8.encode_append] at hlast hreads
      rw [hstep]
      refine ⟨s, now, hlogged, hlast, fun _ ↦ ?_⟩
      -- when no errors follow, the store is the one that this error has left
      cases entries with
      | nil =>
          obtain rfl : u = s := congrArg Machine.store hlogged
          rw [errorLines, errorLines, String.append_empty]
          exact hread
      | cons e entries => exact hreads (List.cons_ne_nil _ _)

/-- However many errors are logged, each is added behind the one before it, and nothing else is done.
They are one line each if and only if no message has the end of a line in it. -/
theorem errors_one_line_each_iff (h : Accepts m old) (entries : List (Moment × String)) :
    (∀ content, m.store.read m.here (errorPath m.environment).text = .ok content → content = old) ∧
    (∃ s now, logged m entries = { m with store := s, now := now } ∧
      Accepts (logged m entries) (old ++ Utf8.encode (errorLines entries)) ∧
      (entries ≠ [] → s.read m.here (errorPath m.environment).text =
        .ok (old ++ Utf8.encode (errorLines entries)))) ∧
    (lines (errorLines entries).toList = entries.map entryText ++ [[]] ↔
      ∀ e ∈ entries, IsOneLine e.2.toList) :=
  ⟨fun _ ↦ h.read, logged_of_accepts h entries, lines_errorLines_iff entries⟩

/-- A machine with one line in its log. -/
def logging : Machine := Program.manifestOnly []
  [(["Octobuild"], .directory), (["Octobuild", "logs"], .directory),
    (["Octobuild", "logs", "errors.log"], .file (Utf8.encode "begun\n") false)]

theorem accepts_logging : Accepts logging (Utf8.encode "begun\n") :=
  ⟨logging.store, ["Octobuild", "logs", "errors.log"], false,
    Disk.ensureDirectory_of_isDirectory (isDirectory_of_walk Program.spelling.logs rfl),
    .old (locate_of_walk Program.spelling.errors rfl)⟩

/-- Errors two days apart. -/
def twoErrors : List (Moment × String) :=
  [(⟨2024, 1, 2, 3, 4, 5, 0⟩, "lost"), (⟨2024, 1, 4, 3, 4, 5, 0⟩, "found")]

theorem errors_one_line_each_twoErrors :
    (logged logging twoErrors).store.read [] (errorPath {}).text =
      .ok (Utf8.encode "begun\n" ++ Utf8.encode (errorLines twoErrors)) ∧
    lines (errorLines twoErrors).toList = twoErrors.map entryText ++ [[]] := by
  obtain ⟨-, ⟨s, now, hlogged, -, hread⟩, hlines⟩ :=
    errors_one_line_each_iff accepts_logging twoErrors
  constructor
  · rw [hlogged]
    exact hread (List.cons_ne_nil _ _)
  · exact hlines.2 (by decide)

theorem settle_error_apply (text : String) (m : Machine) :
    Broadcast.settle (.error text) m =
      ((), logged m [(m.now, "WM_SETTINGCHANGE broadcast failed: " ++ text)]) := by
  change error _ m = ((), (error _ m).2)
  rcases error ("WM_SETTINGCHANGE broadcast failed: " ++ text) m with ⟨⟨⟩, m'⟩
  rfl

/-- What a sender of messages may say of its failure. -/
def forged : String := "lost\n[2024-01-02 03:04:05] ERROR: forged"

/-- A message of two lines is logged as two errors would be. -/
theorem logged_forged :
    let t : Moment := ⟨2024, 1, 2, 3, 4, 5, 0⟩
    let failed : String := "WM_SETTINGCHANGE broadcast failed: "
    Broadcast.settle (.error forged) logging = ((), logged logging [(t, failed ++ forged)]) ∧
    errorLines [(t, failed ++ forged)] = errorLines [(t, failed ++ "lost"), (t, "forged")] ∧
    (logged logging [(t, failed ++ forged)]).store.read [] (errorPath {}).text =
      .ok (Utf8.encode "begun\n" ++ Utf8.encode (errorLines [(t, failed ++ forged)])) ∧
    lines (errorLines [(t, failed ++ forged)]).toList =
      [entryText (t, failed ++ "lost"), entryText (t, "forged"), []] := by
  intro t failed
  refine ⟨settle_error_apply forged logging, by decide +kernel, ?_, by decide +kernel⟩
  obtain ⟨s, now, hlogged, -, hread⟩ := logged_of_accepts accepts_logging [(t, failed ++ forged)]
  rw [hlogged]
  exact hread (List.cons_ne_nil _ _)

end Journal

end WixAuthoring
