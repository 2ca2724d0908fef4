import WixAuthoring.Machine

namespace WixAuthoring

/-!
# Steps of an action

An action that is made of steps is run step by step: a failure ends it in the state in which it
occurs. What the machine does in one step is written out as the machine after it.
-/

namespace Action

variable {ε σ α β : Type} {x : ExceptT ε (StateM σ) α} {s t : σ}

theorem bind_apply (x : ExceptT ε (StateM σ) α) (f : α → ExceptT ε (StateM σ) β) (s : σ) :
    (x >>= f) s = match x s with
      | (.ok a, t) => f a t
      | (.error e, t) => (.error e, t) := by
  change (match x s with | (r, t) => ExceptT.bindCont f r t) = _
  rcases x s with ⟨_ | a, t⟩ <;> rfl

theorem tryCatch_apply (x : ExceptT ε (StateM σ) α) (handle : ε → ExceptT ε (StateM σ) α) (s : σ) :
    tryCatch x handle s = match x s with
      | (.ok a, t) => (.ok a, t)
      | (.error e, t) => handle e t := by
  change (match x s with | (r, t) => (match r with
    | .ok a => pure (.ok a)
    | .error e => handle e : StateM σ (Except ε α)) t) = _
  rcases x s with ⟨_ | a, t⟩ <;> rfl

theorem bind_of_ok {f : α → ExceptT ε (StateM σ) β} {a : α} (h : x s = (.ok a, t)) :
    (x >>= f) s = f a t := by
  rw [bind_apply, h]

theorem bind_of_error {f : α → ExceptT ε (StateM σ) β} {e : ε} (h : x s = (.error e, t)) :
    (x >>= f) s = (.error e, t) := by
  rw [bind_apply, h]

theorem effect_bind_apply (x : StateM σ α) (f : α → StateM σ β) (s : σ) :
    (x >>= f) s = f (x s).1 (x s).2 := rfl

/-- What follows an action that may have failed is given its result. -/
theorem run_bind_apply (x : ExceptT ε (StateM σ) α) (f : Except ε α → StateM σ β) (s : σ) :
    (x.run >>= f) s = f (x s).1 (x s).2 := rfl

end Action

namespace Machine

def told (m : Machine) (line : String) : Machine := { m with printed := m.printed ++ line ++ "\n" }

def withStore (m : Machine) (s : Store) : Machine := { m with store := s }

/-- What becomes of the next command. -/
def outcome (m : Machine) : Outcome := m.statuses.headD (.ended 0)

/-- The machine after the next command, whatever has become of it. -/
def ran (m : Machine) (command : List String) : Machine :=
  { m.told ("+ " ++ Text.join " " command) with
    commands := m.commands ++ [command], statuses := m.statuses.tail }

section Fields

variable (m : Machine) (s : Store) (line : String) (command : List String)

@[simp] theorem told_store : (m.told line).store = m.store := rfl

@[simp] theorem told_commands : (m.told line).commands = m.commands := rfl

@[simp] theorem withStore_store : (m.withStore s).store = s := rfl

@[simp] theorem withStore_commands : (m.withStore s).commands = m.commands := rfl

@[simp] theorem ran_commands : (m.ran command).commands = m.commands ++ [command] := rfl

theorem ran_ran_commands (next : List String) :
    ((m.ran command).ran next).commands = m.commands ++ [command, next] :=
  List.append_assoc ..

end Fields

theorem run_apply (command : List String) (m : Machine) :
    run command m = if m.outcome = .ended 0 then (Except.ok (), m.ran command)
      else (Except.error (.commandFailed command m.outcome), m.ran command) := by
  change (if m.outcome = .ended 0 then pure () else throw (.commandFailed command m.outcome) :
    Job Unit) (m.ran command) = _
  split <;> rfl

theorem load_apply (path : String) (m : Machine) :
    load path m = ((m.store.read m.here path).mapError .store, m) := rfl

theorem save_apply (p : Path) (text : String) (m : Machine) :
    save p text m = match Disk.write m.here p (Utf8.encode text) m.store with
      | (.ok _, s) => (Except.ok p, m.withStore s)
      | (.error e, s) => (Except.error (writeFailure p e), m.withStore s) := by
  change (onDisk (writeFailure p) (Disk.write m.here p (Utf8.encode text)) >>= fun _ ↦
    pure p : Job Path) m = _
  rw [Action.bind_apply, onDisk]
  rcases Disk.write m.here p (Utf8.encode text) m.store with ⟨_ | _, s⟩ <;> rfl

theorem extend_apply (p : Path) (text : String) (m : Machine) :
    ∃ r s, Disk.append m.here p (Utf8.encode text) m.store = (r, s) ∧
      extend p text m = (r.mapError (appendFailure p), m.withStore s) := by
  rcases happend : Disk.append m.here p (Utf8.encode text) m.store with ⟨r, s⟩
  refine ⟨r, s, rfl, ?_⟩
  change onDisk (appendFailure p) (Disk.append m.here p (Utf8.encode text)) m = _
  rw [onDisk, happend]
  rfl

theorem save_eq_ok {p q : Path} {text : String} {m m' : Machine}
    (h : save p text m = (Except.ok q, m')) :
    q = p ∧ ∃ s, Disk.write m.here p (Utf8.encode text) m.store = (Except.ok (), s) ∧
      m' = m.withStore s := by
  rw [save_apply] at h
  split at h
  · next s hwrite =>
      obtain ⟨hp, hm⟩ := Prod.mk.inj h
      exact ⟨(Except.ok.inj hp).symm, s, hwrite, hm.symm⟩
  · obtain ⟨hp, -⟩ := Prod.mk.inj h
    cases hp

theorem save_eq_error {p : Path} {text : String} {m m' : Machine} {e : Failure}
    (h : save p text m = (Except.error e, m')) :
    ∃ f s, e = writeFailure p f ∧ m' = m.withStore s := by
  rw [save_apply] at h
  split at h
  · cases (Prod.mk.inj h).1
  · next f s hwrite =>
      obtain ⟨he, rfl⟩ := Prod.mk.inj h
      exact ⟨f, s, (Except.error.inj he).symm, rfl⟩

theorem writeFailure_ne_configuration (p : Path) (e : StoreError) (c : ConfigurationError) :
    writeFailure p e ≠ .configuration c := by
  cases e <;> simp [writeFailure]

theorem writeFailure_ne_commandFailed (p : Path) (e : StoreError) (command : List String)
    (outcome : Outcome) : writeFailure p e ≠ .commandFailed command outcome := by
  cases e <;> simp [writeFailure]

theorem save_commands (p : Path) (text : String) (m : Machine) :
    (save p text m).2.commands = m.commands := by
  rw [save_apply]
  split <;> rfl

theorem save_store (p : Path) (text : String) (m : Machine) :
    (save p text m).2.store = (Disk.write m.here p (Utf8.encode text) m.store).2 := by
  rw [save_apply]
  split <;> next h => rw [h]; rfl

theorem save_of_write {p : Path} {text : String} {m : Machine} {s : Store}
    (h : Disk.write m.here p (Utf8.encode text) m.store = (Except.ok (), s)) :
    save p text m = (Except.ok p, m.withStore s) := by
  rw [save_apply, h]

end Machine

end WixAuthoring
