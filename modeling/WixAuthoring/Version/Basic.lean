import WixAuthoring.Text.Split

namespace WixAuthoring

/-!
# Versions

A release number with what may qualify it: an epoch before it, a pre-release, a post-release and a
development release after it, and a local label. The installer shows the first three numbers of the
release only.
-/

inductive PreKind where
  | alpha
  | beta
  | candidate
  deriving DecidableEq, Repr

def PreKind.text : PreKind → String
  | .alpha => "a"
  | .beta => "b"
  | .candidate => "rc"

inductive LocalPart where
  | number (n : Nat)
  | word (s : String)
  deriving DecidableEq, Repr

def LocalPart.text : LocalPart → String
  | .number n => toString n
  | .word s => s

structure Version where
  epoch : Nat := 0
  release : List Nat
  pre : Option (PreKind × Nat) := none
  post : Option Nat := none
  dev : Option Nat := none
  /-- The parts of the local label. There is no label when there are no parts. -/
  label : List LocalPart := []
  deriving DecidableEq, Repr

namespace Version

def releaseText (release : List Nat) : String := Text.join "." (release.map toString)

def labelText (label : List LocalPart) : String := Text.join "." (label.map LocalPart.text)

/-- The normal form: every part in its short spelling, with no zero epoch. -/
def text (v : Version) : String :=
  (if v.epoch = 0 then "" else toString v.epoch ++ "!") ++ releaseText v.release ++
    (v.pre.elim "" fun (kind, n) ↦ kind.text ++ toString n) ++
    (v.post.elim "" fun n ↦ ".post" ++ toString n) ++
    (v.dev.elim "" fun n ↦ ".dev" ++ toString n) ++
    (if v.label = [] then "" else "+" ++ labelText v.label)

/-- The first three numbers of the release, zeros for those that are not given. -/
def triple (v : Version) : List Nat := (v.release ++ [0, 0, 0]).take 3

/-- What an installer database shows as the version of a product. -/
def installerText (v : Version) : String := releaseText v.triple

@[simp] theorem length_triple (v : Version) : v.triple.length = 3 := by
  simp [triple]

end Version

end WixAuthoring
