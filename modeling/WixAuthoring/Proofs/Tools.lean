import WixAuthoring.Proofs.PathTexts
import WixAuthoring.Toolchain

namespace WixAuthoring.Toolchain

/-!
# The directory of the tools

Both tools are run from the directory that is found. A directory that is named, or that the
installer of the tools has set, is taken only if it holds both. On the search path they are looked
for one by one, so that the linker may be in another directory than the compiler.
-/

variable {s : Store} {here : Location} {onWindows : Bool} {v : Variables} {explicit : Option Path}
  {d : Path} {name path directory : String}

/-- Holds when a tool is a regular file in a directory. -/
def Holds (s : Store) (here : Location) (onWindows : Bool) (directory : Path) (name : String) :
    Prop :=
  ∃ place, s.file? here (tool onWindows directory name).text = .ok (some place)

def HoldsBoth (s : Store) (here : Location) (onWindows : Bool) (directory : Path) : Prop :=
  Holds s here onWindows directory compiler ∧ Holds s here onWindows directory linker

/-- Holds when the directory that the installer of the tools has set holds both of them. -/
def IsInstalled (s : Store) (here : Location) (onWindows : Bool) (v : Variables) : Prop :=
  ∃ home, given v.wix = some home ∧ HoldsBoth s here onWindows ((Path.parse home).child "bin")

/-- Holds when a program of the given name is in some directory of the search path. -/
def OnSearchPath (s : Store) (here : Location) (v : Variables) (name : String) : Prop :=
  ∃ directory ∈ searchDirectories v, s.isProgram here (programIn directory name) = true

theorem isFile_eq_true_iff {p : Path} :
    isFile s here p = .ok true ↔ ∃ place, s.file? here p.text = .ok (some place) := by
  rw [isFile]
  cases s.file? here p.text with
  | error e => simp [Except.map, Except.mapError]
  | ok found => cases found <;> simp [Except.map, Except.mapError]

theorem holdsTools_eq_true_iff :
    holdsTools s here onWindows d = .ok true ↔ HoldsBoth s here onWindows d := by
  rw [HoldsBoth, Holds, Holds, ← isFile_eq_true_iff, ← isFile_eq_true_iff, holdsTools,
    bind_eq_ok_iff]
  constructor
  · rintro ⟨found, hcompiler, hlinker⟩
    cases found with
    | false => cases hlinker
    | true => exact ⟨hcompiler, hlinker⟩
  · rintro ⟨hcompiler, hlinker⟩
    exact ⟨true, hcompiler, hlinker⟩

/-! ## The directory that is named, and the one that is set -/

theorem find_some_eq_ok_iff {p : Path} : find s here onWindows v (some p) = .ok d ↔
    d = p ∧ HoldsBoth s here onWindows p := by
  rw [find, bind_eq_ok_iff, ← holdsTools_eq_true_iff]
  constructor
  · rintro ⟨held, hheld, h⟩
    cases held with
    | false => cases h
    | true => exact ⟨(Except.ok.inj h).symm, hheld⟩
  · rintro ⟨rfl, hheld⟩
    exact ⟨true, hheld, rfl⟩

theorem installed?_eq_some_iff : installed? s here onWindows v = .ok (some d) ↔
    ∃ home, given v.wix = some home ∧ d = (Path.parse home).child "bin" ∧
      HoldsBoth s here onWindows d := by
  rw [installed?, ← holdsTools_eq_true_iff]
  cases given v.wix with
  | none => simp
  | some home =>
      dsimp only
      rw [bind_eq_ok_iff]
      constructor
      · rintro ⟨held, hheld, h⟩
        cases held with
        | false => cases Except.ok.inj h
        | true =>
            obtain rfl := Option.some.inj (Except.ok.inj h)
            exact ⟨home, rfl, rfl, hheld⟩
      · rintro ⟨other, hhome, rfl, hheld⟩
        obtain rfl := Option.some.inj hhome
        exact ⟨true, hheld, rfl⟩

theorem exists_installed?_iff :
    (∃ d, installed? s here onWindows v = .ok (some d)) ↔ IsInstalled s here onWindows v := by
  simp only [installed?_eq_some_iff, IsInstalled]
  constructor
  · rintro ⟨_, home, hhome, rfl, hboth⟩
    exact ⟨home, hhome, hboth⟩
  · rintro ⟨home, hhome, hboth⟩
    exact ⟨_, home, hhome, rfl, hboth⟩

/-! ## The search path -/

theorem search?_eq_some_iff : search? s here v name = some path ↔
    ∃ directory, (searchDirectories v).find? (fun e ↦ s.isProgram here (programIn e name)) =
      some directory ∧ path = programIn directory name := by
  rw [search?, List.find?_map, Option.map_eq_some_iff]
  exact exists_congr fun directory ↦ and_congr_right fun _ ↦ eq_comm

theorem exists_search?_iff :
    (∃ path, search? s here v name = some path) ↔ OnSearchPath s here v name := by
  rw [search?, ← Option.isSome_iff_exists, List.find?_isSome]
  simp [OnSearchPath]

theorem searched?_eq_some_iff : searched? s here v = some d ↔
    ∃ directory, (searchDirectories v).find? (fun e ↦ s.isProgram here (programIn e compiler)) =
        some directory ∧
      d = (Path.parse (programIn directory compiler)).parent ∧ OnSearchPath s here v linker := by
  simp only [searched?, ← exists_search?_iff, Option.bind_eq_bind, Option.bind_eq_some_iff]
  constructor
  · rintro ⟨path, hpath, other, hother, h⟩
    obtain ⟨directory, hdirectory, rfl⟩ := search?_eq_some_iff.1 hpath
    exact ⟨directory, hdirectory, (Option.some.inj h).symm, other, hother⟩
  · rintro ⟨directory, hdirectory, rfl, other, hother⟩
    exact ⟨_, search?_eq_some_iff.2 ⟨directory, hdirectory, rfl⟩, other, hother, rfl⟩

theorem exists_searched?_iff : (∃ d, searched? s here v = some d) ↔
    OnSearchPath s here v compiler ∧ OnSearchPath s here v linker := by
  simp only [← exists_search?_iff, searched?, Option.bind_eq_bind, Option.bind_eq_some_iff]
  constructor
  · rintro ⟨d, path, hpath, other, hother, -⟩
    exact ⟨⟨path, hpath⟩, other, hother⟩
  · rintro ⟨⟨path, hpath⟩, other, hother⟩
    exact ⟨_, path, hpath, other, hother, rfl⟩

theorem find_none_eq_ok_iff : find s here onWindows v none = .ok d ↔
    installed? s here onWindows v = .ok (some d) ∨
      installed? s here onWindows v = .ok none ∧ searched? s here v = some d := by
  rw [find, bind_eq_ok_iff]
  constructor
  · rintro ⟨found, hinstalled, h⟩
    cases found with
    | some directory =>
        obtain rfl := Except.ok.inj h
        exact .inl hinstalled
    | none =>
        dsimp only at h
        split at h
        · next hsearched =>
            obtain rfl := Except.ok.inj h
            exact .inr ⟨hinstalled, hsearched⟩
        · cases h
  · rintro (hinstalled | ⟨hinstalled, hsearched⟩)
    · exact ⟨some d, hinstalled, rfl⟩
    · refine ⟨none, hinstalled, ?_⟩
      rw [hsearched]
      rfl

/-! ## The directory of a program -/

theorem names_programIn (hname : Path.isName name = true) (hslash : '/' ∉ name.toList)
    (directory : String) : Path.names Path.isSlash (programIn directory name) =
      Path.names Path.isSlash directory ++ [name] := by
  rw [← Path.names_eq_singleton hname hslash, programIn]
  split
  · next hempty =>
      subst hempty
      rfl
  split
  · next hlast =>
      obtain ⟨front, hfront⟩ := List.getLast?_eq_some_iff.1 hlast
      have hdirectory : directory = String.ofList front ++ "/" := by
        rw [← String.toList_inj, hfront]
        simp
      have hfront := Path.names_append_slash (String.ofList front) ""
      rw [String.append_empty] at hfront
      rw [hdirectory, Path.names_append_slash, hfront, show Path.names Path.isSlash "" = [] by rfl,
        List.append_nil]
  · exact Path.names_append_slash directory name

theorem tool_programIn (hname : Path.isName name = true) (hslash : '/' ∉ name.toList)
    (directory : String) :
    tool false (Path.parse (programIn directory name)).parent name =
      Path.parse (programIn directory name) := by
  have hrelative : Path.anchorOf name.toList = .relative := by
    rcases Path.anchorOf_cases name.toList with ⟨h, -⟩ | ⟨-, t, ht⟩ | ⟨-, t, ht⟩
    · exact h
    · exact absurd (by simp [ht]) hslash
    · exact absurd (by simp [ht]) hslash
  rw [tool, if_neg (by decide), Path.child_of_relative hrelative,
    Path.names_eq_singleton hname hslash]
  simp [Path.parent, Path.parse, names_programIn hname hslash]

theorem exists_file?_of_isProgram (h : s.isProgram here path = true) :
    ∃ place, s.file? here (Path.parse path).text = .ok (some place) := by
  rw [Store.isProgram] at h
  split at h
  · next place content executable hlook =>
      have hlocate := Store.locate_text_parse (Store.look_eq_ok_iff.1 hlook)
      exact ⟨place, Store.file?_eq_some_iff.2 ⟨_, rfl, hlocate⟩⟩
  · cases h

/-- Off Windows, the compiler is in its directory on the search path. -/
theorem holds_compiler_of_isProgram (h : s.isProgram here (programIn directory compiler) = true) :
    Holds s here false (Path.parse (programIn directory compiler)).parent compiler := by
  rw [Holds, tool_programIn (by decide) (by decide)]
  exact exists_file?_of_isProgram h

/-! ## What the directory holds -/

/-- What is known of the directory that is found. A directory that is named or set holds both
tools. On the search path it is the directory of the first compiler there, and need not hold the
linker, nor on Windows the compiler by the name that it is run by. -/
structure IsFound (s : Store) (here : Location) (onWindows : Bool) (v : Variables)
    (explicit : Option Path) (d : Path) : Prop where
  both_held_iff : HoldsBoth s here onWindows d ↔
    (explicit = none → ¬ IsInstalled s here onWindows v →
      Holds s here onWindows d linker ∧ (onWindows = true → Holds s here onWindows d compiler))
  searched : explicit = none → ¬ IsInstalled s here onWindows v → ∃ directory,
    (searchDirectories v).find? (fun e ↦ s.isProgram here (programIn e compiler)) =
      some directory ∧
    d = (Path.parse (programIn directory compiler)).parent
  launched : ∀ platform object source options output,
    (compileCommand onWindows d platform object source).head? =
      some (tool onWindows d compiler).text ∧
    (linkCommand onWindows d options output object).head? = some (tool onWindows d linker).text

theorem launched_eq (onWindows : Bool) (d : Path) (platform : String) (object source : Path)
    (options : List String) (output : Path) :
    (compileCommand onWindows d platform object source).head? =
      some (tool onWindows d compiler).text ∧
    (linkCommand onWindows d options output object).head? = some (tool onWindows d linker).text :=
  ⟨rfl, rfl⟩

theorem isFound_of_holdsBoth (h : HoldsBoth s here onWindows d)
    (hinstalled : explicit = none → IsInstalled s here onWindows v) :
    IsFound s here onWindows v explicit d where
  both_held_iff := iff_of_true h fun hnone hnot ↦ absurd (hinstalled hnone) hnot
  searched hnone hnot := absurd (hinstalled hnone) hnot
  launched := launched_eq onWindows d

theorem isFound_of_searched? (hinstalled : ¬ IsInstalled s here onWindows v)
    (h : searched? s here v = some d) : IsFound s here onWindows v none d := by
  obtain ⟨directory, hdirectory, hd, -⟩ := searched?_eq_some_iff.1 h
  have hcompiler (hnot : onWindows = false) : Holds s here onWindows d compiler := by
    -- only off Windows is the compiler run by the name that has been searched for
    have hprogram := List.find?_some hdirectory
    rw [hnot, hd]
    exact holds_compiler_of_isProgram hprogram
  constructor
  case both_held_iff =>
    constructor
    · exact fun hboth _ _ ↦ ⟨hboth.2, fun _ ↦ hboth.1⟩
    · intro h
      obtain ⟨hlinker, hwindows⟩ := h rfl hinstalled
      cases onWindows with
      | false => exact ⟨hcompiler rfl, hlinker⟩
      | true => exact ⟨hwindows rfl, hlinker⟩
  case searched => exact fun _ _ ↦ ⟨directory, hdirectory, hd⟩
  case launched => exact launched_eq onWindows d

theorem isFound_of_find (h : find s here onWindows v explicit = .ok d) :
    IsFound s here onWindows v explicit d := by
  cases explicit with
  | some p =>
      obtain ⟨rfl, hboth⟩ := find_some_eq_ok_iff.1 h
      exact isFound_of_holdsBoth hboth (by simp)
  | none =>
      rcases find_none_eq_ok_iff.1 h with hinstalled | ⟨hinstalled, hsearched⟩
      · obtain ⟨_, -, -, hboth⟩ := installed?_eq_some_iff.1 hinstalled
        exact isFound_of_holdsBoth hboth fun _ ↦ exists_installed?_iff.1 ⟨d, hinstalled⟩
      · refine isFound_of_searched? ?_ hsearched
        rw [← exists_installed?_iff, hinstalled]
        simp

/-- What is known when nothing is found: no directory holds both tools where one is asked for. -/
structure NoneHolds (s : Store) (here : Location) (onWindows : Bool) (v : Variables)
    (explicit : Option Path) : Prop where
  named : ∀ directory, explicit = some directory → ¬ HoldsBoth s here onWindows directory
  set : explicit = none → ¬ IsInstalled s here onWindows v
  searched : explicit = none → installed? s here onWindows v = .ok none →
    ¬ (OnSearchPath s here v compiler ∧ OnSearchPath s here v linker)

theorem noneHolds_of_find_error {e : Failure} (h : find s here onWindows v explicit = .error e) :
    NoneHolds s here onWindows v explicit where
  named directory hexplicit hboth := by
    subst hexplicit
    have hfind := find_some_eq_ok_iff (v := v).2 ⟨rfl, hboth⟩
    rw [h] at hfind
    cases hfind
  set hexplicit hinstalled := by
    subst hexplicit
    obtain ⟨d, hd⟩ := exists_installed?_iff.2 hinstalled
    have hfind := find_none_eq_ok_iff.2 (.inl hd)
    rw [h] at hfind
    cases hfind
  searched hexplicit hinstalled hboth := by
    subst hexplicit
    obtain ⟨d, hsearched⟩ := exists_searched?_iff.2 hboth
    have hfind := find_none_eq_ok_iff.2 (.inr ⟨hinstalled, hsearched⟩)
    rw [h] at hfind
    cases hfind

/-- A directory that is found holds both tools unless the search path has led to it, and nothing is
found only where there is no directory to be had. -/
theorem find_holds_both_iff (s : Store) (here : Location) (onWindows : Bool) (v : Variables)
    (explicit : Option Path) :
    match find s here onWindows v explicit with
    | .ok d => IsFound s here onWindows v explicit d
    | .error _ => NoneHolds s here onWindows v explicit := by
  split
  · next h => exact isFound_of_find h
  · next h => exact noneHolds_of_find_error h

/-- The compiler in one directory, and the linker in the same or in another one. -/
def scattered (directory : String) : Store where
  objects := [(["a"], .directory), (["b"], .directory), (["a", "candle"], .file [] true),
    ([directory, "light"], .file [] true)]

def twoDirectories : Variables := { searchPath := some "a:b" }

theorem together_hold_both :
    find (scattered "a") [] false twoDirectories none = .ok (.parse "a") ∧
      HoldsBoth (scattered "a") [] false (.parse "a") := by
  have hfind : find (scattered "a") [] false twoDirectories none = .ok (.parse "a") := by
    decide +kernel
  have hlinker : Holds (scattered "a") [] false (.parse "a") linker :=
    ⟨["a", "light"], by decide +kernel⟩
  have hfound := find_holds_both_iff (scattered "a") [] false twoDirectories none
  rw [hfind] at hfound
  exact ⟨hfind, hfound.both_held_iff.2 fun _ _ ↦ ⟨hlinker, fun hwindows ↦ by cases hwindows⟩⟩

/-- The linker is on the search path, but not beside the compiler. -/
theorem scattered_not_held :
    find (scattered "b") [] false twoDirectories none = .ok (.parse "a") ∧
      ¬ HoldsBoth (scattered "b") [] false (.parse "a") := by
  have hlinker : (scattered "b").file? [] (tool false (.parse "a") linker).text = .ok none := by
    decide +kernel
  refine ⟨by decide +kernel, ?_⟩
  rintro ⟨-, place, hplace⟩
  rw [hlinker] at hplace
  cases hplace

end WixAuthoring.Toolchain
