import WixAuthoring.Proofs.Runs
import Mathlib.Data.List.Induction

namespace WixAuthoring

/-!
# Options on either side of the command

Options may stand before the command, behind it, or on both sides of it. They are read in the order
in which they stand, so the last one of a kind wins, and a build is the same wherever they stand.
-/

namespace CommandLine

variable {t : Topic} {s : Setting} {settings before after : List Setting}
  {enter : Option (String → List String → Except Refusal Reading)}

/-! ## Options as they are written -/

/-- Holds of an option that can be written in full: it is not help, its value has no hyphen in
front, and it has the empty value if it takes none. -/
structure Setting.IsPlain (s : Setting) : Prop where
  ne_help : s.flag ≠ .help
  unhyphened : s.value.toList.head? ≠ some '-'
  bare : s.flag = .wxsOnly → s.value = ""

instance : Decidable s.IsPlain :=
  decidable_of_iff (s.flag ≠ .help ∧ s.value.toList.head? ≠ some '-' ∧
      (s.flag = .wxsOnly → s.value = ""))
    ⟨fun ⟨h, h', h''⟩ ↦ ⟨h, h', h''⟩, fun ⟨h, h', h''⟩ ↦ ⟨h, h', h''⟩⟩

/-- The arguments that set an option. -/
def Setting.words (s : Setting) : List String :=
  if s.flag = .wxsOnly then [s.flag.title] else [s.flag.title, s.value]

def words (settings : List Setting) : List String := settings.flatMap Setting.words

@[simp] theorem words_nil : words [] = [] := rfl

theorem words_cons (s : Setting) (settings : List Setting) :
    words (s :: settings) = s.words ++ words settings := rfl

theorem words_append (before after : List Setting) :
    words (before ++ after) = words before ++ words after :=
  List.flatMap_append

/-- The arguments that set an option, each with its mark. -/
def Setting.marked (s : Setting) : List (String × Mark) :=
  (s.flag.title, .option s.flag .nothing) ::
    if s.flag = .wxsOnly then [] else [(s.value, .argument)]

def allMarked (settings : List Setting) : List (String × Mark) := settings.flatMap Setting.marked

theorem allMarked_cons (s : Setting) (settings : List Setting) :
    allMarked (s :: settings) = s.marked ++ allMarked settings := rfl

theorem map_fst_marked (s : Setting) : s.marked.map Prod.fst = s.words := by
  rw [Setting.marked, Setting.words]
  split <;> rfl

theorem map_fst_allMarked (settings : List Setting) :
    (allMarked settings).map Prod.fst = words settings := by
  rw [allMarked, words, List.map_flatMap]
  simp only [map_fst_marked]

/-! ## Marking -/

theorem mark_of_unhyphened {argument : String} (h : argument.toList.head? ≠ some '-') :
    mark t argument = .ok .argument := by
  rw [mark]
  split
  · rfl
  · rfl
  · next hhyphen =>
      rw [hhyphen] at h
      exact absurd rfl h
  · rfl

theorem mark_title {flag : Flag} (htopic : t.spellings = Topic.spellings .program)
    (h : flag ≠ .help) : mark t flag.title = .ok (.option flag .nothing) := by
  cases flag with
  | help => exact absurd rfl h
  | manifest | sourceRoot | outDir | wixBin | wxsOnly =>
      unfold mark
      rw [htopic]
      rfl

theorem title_ne_separator (flag : Flag) : flag.title ≠ "--" := by
  cases flag <;> decide

theorem ne_separator_of_unhyphened {argument : String} (h : argument.toList.head? ≠ some '-') :
    argument ≠ "--" := by
  rintro rfl
  exact h rfl

theorem markAll_cons {argument : String} {m : Mark} (hseparator : argument ≠ "--")
    (hmark : mark t argument = .ok m) (rest : List String) :
    markAll t (argument :: rest) = (markAll t rest).map ((argument, m) :: ·) := by
  rw [markAll, if_neg hseparator, hmark]
  rfl

/-- What stands in front of other arguments is marked by itself. -/
theorem markAll_words_append (htopic : t.spellings = Topic.spellings .program)
    (h : ∀ s ∈ settings, s.IsPlain) (rest : List String) :
    markAll t (words settings ++ rest) = (markAll t rest).map (allMarked settings ++ ·) := by
  induction settings with
  | nil =>
      change markAll t rest = _
      cases markAll t rest <;> rfl
  | cons s settings ih =>
      rw [List.forall_mem_cons] at h
      obtain ⟨hs, hsettings⟩ := h
      have htitle := markAll_cons (title_ne_separator s.flag) (mark_title htopic hs.ne_help)
      have hvalue := markAll_cons (t := t) (ne_separator_of_unhyphened hs.unhyphened)
        (mark_of_unhyphened hs.unhyphened)
      rw [words_cons, allMarked_cons, Setting.words, Setting.marked, List.append_assoc]
      split
      · rw [List.singleton_append, htitle, ih hsettings]
        cases markAll t rest <;> rfl
      · rw [List.cons_append, List.singleton_append, htitle, hvalue, ih hsettings]
        cases markAll t rest <;> rfl

theorem markAll_words (htopic : t.spellings = Topic.spellings .program)
    (h : ∀ s ∈ settings, s.IsPlain) : markAll t (words settings) = .ok (allMarked settings) := by
  rw [← List.append_nil (words settings), markAll_words_append htopic h, markAll, Except.map,
    List.append_nil]

/-! ## Reading -/

/-- A reading with more options in front of its own. -/
def Reading.setAll (r : Reading) (settings : List Setting) : Reading :=
  { r with settings := settings ++ r.settings }

theorem read_marked_append (h : s.IsPlain) (rest : List (String × Mark)) :
    read t enter (s.marked ++ rest) = (read t enter rest).map (·.set s.flag s.value) := by
  obtain ⟨flag, value⟩ := s
  cases flag with
  | help => exact absurd rfl h.ne_help
  | wxsOnly =>
      obtain rfl : value = "" := h.bare rfl
      rw [Setting.marked, if_pos rfl]
      change read t enter (_ :: rest) = _
      rw [read]
      rfl
  | manifest | sourceRoot | outDir | wixBin =>
      rw [Setting.marked, if_neg (by simp)]
      change read t enter (_ :: _ :: rest) = _
      rw [read]
      · rfl
      · simp
      · simp

theorem read_allMarked_append (h : ∀ s ∈ settings, s.IsPlain) (rest : List (String × Mark)) :
    read t enter (allMarked settings ++ rest) = (read t enter rest).map (·.setAll settings) := by
  induction settings with
  | nil =>
      change read t enter rest = _
      cases read t enter rest <;> rfl
  | cons s settings ih =>
      rw [List.forall_mem_cons] at h
      rw [allMarked_cons, List.append_assoc, read_marked_append h.1, ih h.2]
      cases read t enter rest <;> rfl

theorem read_allMarked (h : ∀ s ∈ settings, s.IsPlain) :
    read t enter (allMarked settings) = .ok { settings := settings } := by
  rw [← List.append_nil (allMarked settings), read_allMarked_append h, read, Except.map,
    Reading.setAll, List.append_nil]

theorem readCommand_words (h : ∀ s ∈ settings, s.IsPlain) :
    readCommand "build" (words settings) =
      .ok { settings := settings, command := some .build } := by
  have hname : Command.ofName? "build" = some .build := by decide
  have hmarks : markAll (.command .build) (words settings) = _ := markAll_words rfl h
  rw [readCommand, hname]
  dsimp only
  rw [hmarks]
  change (read (.command .build) none (allMarked settings) >>= _) = _
  rw [read_allMarked h]
  rfl

theorem readLine_words (h : ∀ s ∈ settings, s.IsPlain) :
    readLine (words settings) = .ok { settings := settings } := by
  rw [readLine, markAll_words rfl h]
  exact read_allMarked h

/-- The options before the command come before those behind it. -/
theorem readLine_words_command (hbefore : ∀ s ∈ before, s.IsPlain)
    (hafter : ∀ s ∈ after, s.IsPlain) :
    readLine (words before ++ "build" :: words after) =
      .ok { settings := before ++ after, command := some .build } := by
  have hcommand : mark .program "build" = .ok .argument := mark_of_unhyphened (by decide)
  rw [readLine, markAll_words_append rfl hbefore, markAll_cons (by decide) hcommand,
    markAll_words rfl hafter]
  change read .program (some readCommand)
    (allMarked before ++ ("build", .argument) :: allMarked after) = _
  rw [read_allMarked_append hbefore, read, map_fst_allMarked, readCommand_words hafter]
  rfl

/-! ## What is asked for -/

/-- The value that the last option of a kind has, if there is one. -/
def lastValue? (flag : Flag) (settings : List Setting) : Option String :=
  ((settings.filter fun s ↦ s.flag = flag).map Setting.value).getLast?

/-- What some options ask for. The last one of a kind counts, and each kind has a default. -/
def requested (command : Option Command) (settings : List Setting) : Options where
  command := command
  manifest := .parse ((lastValue? .manifest settings).getD "Cargo.toml")
  sourceRoot := .parse ((lastValue? .sourceRoot settings).getD ".")
  outDir := .parse ((lastValue? .outDir settings).getD "target")
  wixBin := (lastValue? .wixBin settings).map .parse
  wxsOnly := settings.any fun s ↦ s.flag = .wxsOnly

theorem lastValue?_concat (flag : Flag) (settings : List Setting) (s : Setting) :
    lastValue? flag (settings ++ [s]) =
      if s.flag = flag then some s.value else lastValue? flag settings := by
  by_cases h : s.flag = flag <;> simp [lastValue?, h]

theorem apply_requested (command : Option Command) (settings : List Setting) (s : Setting) :
    (requested command settings).apply s = requested command (settings ++ [s]) := by
  obtain ⟨flag, value⟩ := s
  cases flag <;> simp [requested, Options.apply, lastValue?_concat]

theorem foldl_apply (command : Option Command) (settings : List Setting) :
    settings.foldl Options.apply { command := command } = requested command settings := by
  induction settings using List.reverseRecOn with
  | nil => rfl
  | append_singleton settings s ih =>
      rw [List.foldl_append, ih]
      exact apply_requested command settings s

theorem parse_of_readLine {arguments : List String} {command : Option Command}
    (h : readLine arguments = .ok { settings := settings, command := command }) :
    parse arguments = .ok (requested command settings) := by
  rw [parse, h]
  exact congrArg Except.ok (foldl_apply command settings)

end CommandLine

namespace Program

open CommandLine

variable {before after : List Setting}

/-- Options mean the same before the build command, behind it and without it: the last one of a kind
counts, and a kind that does not occur has its default. So the three lines are one build. -/
theorem options_on_either_side (h : ∀ s ∈ before ++ after, s.IsPlain) :
    parse (words before ++ "build" :: words after) =
      .ok (requested (some .build) (before ++ after)) ∧
    parse ("build" :: (words before ++ words after)) =
      .ok (requested (some .build) (before ++ after)) ∧
    parse (words before ++ words after) = .ok (requested none (before ++ after)) ∧
    ∀ m, run (words before ++ "build" :: words after) m = run (words before ++ words after) m ∧
      run ("build" :: (words before ++ words after)) m = run (words before ++ words after) m := by
  obtain ⟨hbefore, hafter⟩ := List.forall_mem_append.1 h
  have hsplit := parse_of_readLine (readLine_words_command hbefore hafter)
  have hnone : ∀ s ∈ ([] : List Setting), s.IsPlain := by simp
  have hbehind := parse_of_readLine (readLine_words_command hnone h)
  have hwithout := parse_of_readLine (readLine_words h)
  rw [words_nil, List.nil_append, List.nil_append, words_append] at hbehind
  rw [words_append] at hwithout
  refine ⟨hsplit, hbehind, hwithout, fun m ↦ ?_⟩
  -- Without a command a build is performed, and a build does not look at the command.
  have hsame : perform (requested (some .build) (before ++ after)) =
      perform (requested none (before ++ after)) := rfl
  rw [run_of_parse hsplit, run_of_parse hbehind, run_of_parse hwithout, hsame]
  exact ⟨rfl, rfl⟩

/-- Options with the names of commands as values, and one of them twice. -/
def optionsBefore : List Setting := [⟨.manifest, "build"⟩, ⟨.wxsOnly, ""⟩, ⟨.wixBin, "version"⟩]

def optionsAfter : List Setting := [⟨.outDir, ""⟩, ⟨.manifest, "broadcast"⟩]

theorem command_names_as_values :
    parse ["--manifest", "build", "--wxs-only", "--wix-bin", "version", "build", "--out-dir", "",
      "--manifest", "broadcast"] =
      .ok { command := some .build, manifest := .parse "broadcast", outDir := .current,
            wixBin := some (.parse "version"), wxsOnly := true } ∧
    ∀ m, run ["--manifest", "build", "--wxs-only", "--wix-bin", "version", "build", "--out-dir", "",
        "--manifest", "broadcast"] m =
      run ["--manifest", "build", "--wxs-only", "--wix-bin", "version", "--out-dir", "",
        "--manifest", "broadcast"] m := by
  have hplain : ∀ s ∈ optionsBefore ++ optionsAfter, s.IsPlain := by decide
  obtain ⟨hparse, -, -, hrun⟩ := options_on_either_side hplain
  exact ⟨hparse, fun m ↦ (hrun m).1⟩

end Program

end WixAuthoring
