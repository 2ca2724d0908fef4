namespace WixAuthoring.Sha1

/-!
# SHA-1

The digest of a byte string: the padded text is cut into words of 32 bits, sixteen words to a block,
and each block is mixed into five words of state in eighty rounds.
-/

structure State where
  a : UInt32
  b : UInt32
  c : UInt32
  d : UInt32
  e : UInt32
  deriving DecidableEq, Repr

def State.start : State := ⟨0x67452301, 0xEFCDAB89, 0x98BADCFE, 0x10325476, 0xC3D2E1F0⟩

def State.add (s t : State) : State := ⟨s.a + t.a, s.b + t.b, s.c + t.c, s.d + t.d, s.e + t.e⟩

def rotate (k x : UInt32) : UInt32 := (x <<< k) ||| (x >>> (32 - k))

/-- The low bytes of a number, the highest of them first. -/
def bigEndian : (width : Nat) → Nat → List UInt8
  | 0, _ => []
  | width + 1, n => bigEndian width (n / 256) ++ [UInt8.ofNat (n % 256)]

@[simp] theorem length_bigEndian (width n : Nat) : (bigEndian width n).length = width := by
  induction width generalizing n with
  | zero => rfl
  | succ width ih => simp [bigEndian, ih]

/-- A one bit, then zeros up to the last eight bytes of a block, which hold the length in bits. -/
def pad (text : List UInt8) : List UInt8 :=
  text ++ 0x80 :: List.replicate ((119 - text.length % 64) % 64) 0 ++ bigEndian 8 (8 * text.length)

theorem length_pad (text : List UInt8) : (pad text).length % 64 = 0 := by
  simp only [pad, List.length_append, List.length_cons, List.length_replicate, length_bigEndian]
  omega

def words : List UInt8 → List UInt32
  | a :: b :: c :: d :: rest =>
    UInt32.ofNat (((a.toNat * 256 + b.toNat) * 256 + c.toNat) * 256 + d.toNat) :: words rest
  | _ => []

/-- The word that follows in the schedule, from those before it, the latest first. -/
def nextWord (latest : List UInt32) : UInt32 :=
  rotate 1 (latest.getD 2 0 ^^^ latest.getD 7 0 ^^^ latest.getD 13 0 ^^^ latest.getD 15 0)

def extend : (rounds : Nat) → List UInt32 → List UInt32
  | 0, latest => latest
  | rounds + 1, latest => extend rounds (nextWord latest :: latest)

def schedule (block : List UInt32) : List UInt32 := (extend 64 block.reverse).reverse

/-- The mixing function and the constant of a round. -/
def mix (round : Nat) (s : State) : UInt32 :=
  if round < 20 then ((s.b &&& s.c) ||| (~~~s.b &&& s.d)) + 0x5A827999
  else if round < 40 then (s.b ^^^ s.c ^^^ s.d) + 0x6ED9EBA1
  else if round < 60 then ((s.b &&& s.c) ||| (s.b &&& s.d) ||| (s.c &&& s.d)) + 0x8F1BBCDC
  else (s.b ^^^ s.c ^^^ s.d) + 0xCA62C1D6

def round (s : State) (word : UInt32 × Nat) : State :=
  ⟨rotate 5 s.a + mix word.2 s + s.e + word.1, s.a, rotate 30 s.b, s.c, s.d⟩

def compress (s : State) (block : List UInt32) : State :=
  s.add ((schedule block).zipIdx.foldl round s)

/-- Collects words until a block is full. -/
def absorb (s : State × List UInt32) (word : UInt32) : State × List UInt32 :=
  let block := s.2 ++ [word]
  if block.length = 16 then (compress s.1 block, []) else (s.1, block)

def State.bytes (s : State) : List UInt8 :=
  [s.a, s.b, s.c, s.d, s.e].flatMap fun word ↦ bigEndian 4 word.toNat

@[simp] theorem State.length_bytes (s : State) : s.bytes.length = 20 := by
  simp [State.bytes]

def digest (text : List UInt8) : List UInt8 :=
  ((words (pad text)).foldl absorb (State.start, [])).1.bytes

@[simp] theorem length_digest (text : List UInt8) : (digest text).length = 20 := by
  simp [digest]

end WixAuthoring.Sha1
