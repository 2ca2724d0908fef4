import WixAuthoring.Store.Walk

namespace WixAuthoring

/-!
# Where a walk arrives

A walk that arrives somewhere is told step by step: a name says nothing, leads up, leads into a
directory or through a link, or is the last one. What is true of all walks is an induction over
these steps.
-/

namespace Store

/-- Holds of a name that a walk looks up, with what is left behind it. -/
structure LooksUp (purpose : Purpose) (name : String) (rest : List String) : Prop where
  ne_empty : name ≠ ""
  ne_dot : name ≠ "."
  ne_up : name ≠ ".."
  unslashed : purpose = .write → isSlashed rest = false
  short : name.utf8ByteSize ≤ longestName

/-- The walks that arrive, with the number of links they may still go through. -/
inductive Arrives (s : Store) (purpose : Purpose) :
    Nat → Location → List String → Destination → Prop
  | stay (links : Nat) (here : Location) : Arrives s purpose links here [] (.object here .directory)
  | skip {links : Nat} {here : Location} {name : String} {rest : List String} {d : Destination}
      (hname : name = "" ∨ name = ".") (h : Arrives s purpose links here rest d) :
      Arrives s purpose links here (name :: rest) d
  | up {links : Nat} {here : Location} {rest : List String} {d : Destination}
      (h : Arrives s purpose links here.dropLast rest d) :
      Arrives s purpose links here (".." :: rest) d
  | vacant (links : Nat) {here : Location} {name : String} (hname : LooksUp purpose name [])
      (hget : s.get? (here ++ [name]) = none) :
      Arrives s purpose links here [name] (.vacant (here ++ [name]))
  | into {links : Nat} {here : Location} {name : String} {rest : List String} {d : Destination}
      (hname : LooksUp purpose name rest) (hget : s.get? (here ++ [name]) = some .directory)
      (h : Arrives s purpose links (here ++ [name]) rest d) :
      Arrives s purpose links here (name :: rest) d
  | follow {links : Nat} {here : Location} {name target : String} {rest : List String}
      {d : Destination} (hname : LooksUp purpose name rest)
      (hget : s.get? (here ++ [name]) = some (.link target)) (hgoes : rest = [] → purpose ≠ .name)
      (h : Arrives s purpose links (origin here target) (segments target ++ rest) d) :
      Arrives s purpose (links + 1) here (name :: rest) d
  | link (links : Nat) {here : Location} {name target : String} (hname : LooksUp purpose name [])
      (hget : s.get? (here ++ [name]) = some (.link target)) (hstops : purpose = .name) :
      Arrives s purpose links here [name] (.object (here ++ [name]) (.link target))
  | leaf (links : Nat) {here : Location} {name : String} {object : StoreObject}
      (hname : LooksUp purpose name []) (hget : s.get? (here ++ [name]) = some object)
      (hdirectory : object ≠ .directory) (hlink : ∀ target, object ≠ .link target) :
      Arrives s purpose links here [name] (.object (here ++ [name]) object)

variable {s t : Store} {purpose : Purpose} {links : Nat} {here : Location} {names : List String}
  {d : Destination}

theorem arrives_of_walkWith {enter : Location → List String → Except StoreFault Destination}
    (henter : ∀ here names d, enter here names = .ok d →
      ∃ fewer, links = fewer + 1 ∧ Arrives s purpose fewer here names d)
    (h : s.walkWith purpose enter here names = .ok d) : Arrives s purpose links here names d := by
  induction names generalizing here with
  | nil =>
      obtain rfl := Except.ok.inj h
      exact .stay links here
  | cons name rest ih =>
      rw [walkWith] at h
      split at h
      · next hname => exact .skip (by simpa using hname) (ih h)
      next hname =>
      split at h
      · next hup =>
          subst hup
          exact .up (ih h)
      next hup =>
      split at h
      · cases h
      next hslashed =>
      split at h
      · cases h
      next hlong =>
      simp only [Bool.or_eq_true, decide_eq_true_eq, not_or] at hname
      have hstep : LooksUp purpose name rest :=
        ⟨hname.1, hname.2, hup, fun hp ↦ by simpa [hp] using hslashed, Nat.le_of_not_lt hlong⟩
      split at h
      · next hget =>
          split at h
          · next hrest =>
              subst hrest
              obtain rfl := Except.ok.inj h
              exact .vacant links hstep hget
          · cases h
      · next hget => exact .into hstep hget (ih h)
      · next target hget =>
          split at h
          · next hstops =>
              obtain rfl := Except.ok.inj h
              simp only [Bool.and_eq_true, decide_eq_true_eq] at hstops
              obtain ⟨rfl, hname⟩ := hstops
              exact .link links hstep hget hname
          · next hgoes =>
              obtain ⟨fewer, rfl, h⟩ := henter _ _ _ h
              exact .follow hstep hget (by simpa using hgoes) h
      · next object hdirectory hlink hget =>
          split at h
          · next hrest =>
              subst hrest
              obtain rfl := Except.ok.inj h
              exact .leaf links hstep hget hdirectory hlink
          · cases h

theorem arrives_of_walk (h : s.walk purpose links here names = .ok d) :
    Arrives s purpose links here names d := by
  induction links generalizing here names d with
  | zero =>
      rw [walk] at h
      exact arrives_of_walkWith (fun _ _ _ h ↦ by cases h) h
  | succ links ih =>
      rw [walk] at h
      exact arrives_of_walkWith (fun _ _ _ h ↦ ⟨links, rfl, ih h⟩) h

theorem exists_walk_eq_walkWith (s : Store) (purpose : Purpose) (links : Nat) :
    ∃ enter, s.walk purpose links = s.walkWith purpose enter ∧
      ∀ fewer, links = fewer + 1 → enter = s.walk purpose fewer := by
  cases links with
  | zero => exact ⟨_, rfl, fun _ h ↦ by cases h⟩
  | succ links => exact ⟨_, rfl, fun _ h ↦ by cases h; rfl⟩

/-- What a walk does with a name that it looks up. -/
theorem walkWith_looksUp {name : String} {rest : List String} (h : LooksUp purpose name rest)
    (enter : Location → List String → Except StoreFault Destination) (here : Location) :
    s.walkWith purpose enter here (name :: rest) =
      match s.get? (here ++ [name]) with
      | none => if rest = [] then .ok (.vacant (here ++ [name])) else .error .notFound
      | some .directory => s.walkWith purpose enter (here ++ [name]) rest
      | some (.link target) =>
        if rest = [] && purpose = .name then .ok (.object (here ++ [name]) (.link target))
        else enter (origin here target) (segments target ++ rest)
      | some object =>
        if rest = [] then .ok (.object (here ++ [name]) object) else .error .notDirectory := by
  have hslashed : ¬ (decide (purpose = .write) && isSlashed rest) = true := by
    simpa using h.unslashed
  rw [walkWith, if_neg (by simp [h.ne_empty, h.ne_dot]), if_neg h.ne_up, if_neg hslashed]
  exact if_neg (Nat.not_lt.2 h.short)

theorem Arrives.walk_eq_ok (h : Arrives s purpose links here names d) :
    s.walk purpose links here names = .ok d := by
  induction h with
  | stay links here =>
      obtain ⟨enter, hwalk, -⟩ := exists_walk_eq_walkWith s purpose links
      rw [hwalk, walkWith]
  | @skip links here name rest d hname h ih =>
      obtain ⟨enter, hwalk, -⟩ := exists_walk_eq_walkWith s purpose links
      rw [hwalk] at ih ⊢
      rw [walkWith, if_pos (by simpa using hname), ih]
  | @up links here rest d h ih =>
      obtain ⟨enter, hwalk, -⟩ := exists_walk_eq_walkWith s purpose links
      rw [hwalk] at ih ⊢
      rw [walkWith, if_neg (by decide), if_pos rfl, ih]
  | vacant links hname hget =>
      obtain ⟨enter, hwalk, -⟩ := exists_walk_eq_walkWith s purpose links
      rw [hwalk, walkWith_looksUp hname, hget]
      rfl
  | @into links here name rest d hname hget h ih =>
      obtain ⟨enter, hwalk, -⟩ := exists_walk_eq_walkWith s purpose links
      rw [hwalk] at ih ⊢
      rw [walkWith_looksUp hname, hget]
      exact ih
  | follow hname hget hgoes h ih =>
      rw [walk, walkWith_looksUp hname, hget]
      exact (if_neg (by simpa using hgoes)).trans ih
  | link links hname hget hstops =>
      obtain ⟨enter, hwalk, -⟩ := exists_walk_eq_walkWith s purpose links
      rw [hwalk, walkWith_looksUp hname, hget]
      exact if_pos (by simpa using hstops)
  | @leaf links here name object hname hget hdirectory hlink =>
      obtain ⟨enter, hwalk, -⟩ := exists_walk_eq_walkWith s purpose links
      rw [hwalk, walkWith_looksUp hname, hget]
      cases object with
      | directory => exact absurd rfl hdirectory
      | link target => exact absurd rfl (hlink target)
      | file content executable => rfl
      | device => rfl

theorem walk_eq_ok_iff :
    s.walk purpose links here names = .ok d ↔ Arrives s purpose links here names d :=
  ⟨arrives_of_walk, Arrives.walk_eq_ok⟩

end Store

end WixAuthoring
