namespace WixAuthoring.Utf8

/-!
# UTF-8

Reading never fails: a byte string is cut into characters and ill-formed stretches. A stretch is the
longest beginning of a character that the bytes hold, or one byte that begins none.
-/

/-- A stretch of a byte string: one character, or bytes that are none. -/
inductive Piece where
  | char (c : Char)
  | illFormed (bytes : List UInt8)
  deriving DecidableEq, Repr

/-- A character that is partly read. The next byte has to lie between `low` and `high`. -/
structure Unfinished where
  bytes : List UInt8
  code : Nat
  missing : Nat
  low : UInt8
  high : UInt8
  deriving DecidableEq, Repr

def continuationBits (b : UInt8) : Nat := b.toNat % 64

/-- The state after a first byte, if a character may begin with it and has more bytes. -/
def Unfinished.start? (b : UInt8) : Option Unfinished :=
  if 0xC2 ≤ b && b ≤ 0xDF then some ⟨[b], b.toNat % 32, 1, 0x80, 0xBF⟩
  else if b == 0xE0 then some ⟨[b], 0, 2, 0xA0, 0xBF⟩
  else if b == 0xED then some ⟨[b], 13, 2, 0x80, 0x9F⟩
  else if 0xE1 ≤ b && b ≤ 0xEF then some ⟨[b], b.toNat % 16, 2, 0x80, 0xBF⟩
  else if b == 0xF0 then some ⟨[b], 0, 3, 0x90, 0xBF⟩
  else if 0xF1 ≤ b && b ≤ 0xF3 then some ⟨[b], b.toNat % 8, 3, 0x80, 0xBF⟩
  else if b == 0xF4 then some ⟨[b], 4, 3, 0x80, 0x8F⟩
  else none

def Unfinished.accepts (u : Unfinished) (b : UInt8) : Bool := u.low ≤ b && b ≤ u.high

def Unfinished.push (u : Unfinished) (b : UInt8) : Unfinished :=
  ⟨u.bytes ++ [b], u.code * 64 + continuationBits b, u.missing - 1, 0x80, 0xBF⟩

/-- What reading one byte gives when no character is under way. -/
def begin (b : UInt8) : List Piece × Option Unfinished :=
  if b < 0x80 then ([.char (Char.ofNat b.toNat)], none)
  else match Unfinished.start? b with
    | some u => ([], some u)
    | none => ([.illFormed [b]], none)

/-- What reading one byte gives, and the character that is under way after it. -/
def step : Option Unfinished → UInt8 → List Piece × Option Unfinished
  | none, b => begin b
  | some u, b =>
    if u.accepts b then
      if u.missing = 1 then ([.char (Char.ofNat (u.push b).code)], none)
      else ([], some (u.push b))
    else (.illFormed u.bytes :: (begin b).1, (begin b).2)

def piecesFrom : Option Unfinished → List UInt8 → List Piece
  | none, [] => []
  | some u, [] => [.illFormed u.bytes]
  | state, b :: bytes => (step state b).1 ++ piecesFrom (step state b).2 bytes

/-- The stretches of a byte string, in order. -/
def pieces (bytes : List UInt8) : List Piece := piecesFrom none bytes

def replacement : Char := Char.ofNat 0xFFFD

/-- The text of a byte string, with one replacement character for each ill-formed stretch. -/
def decodeLossy (bytes : List UInt8) : List Char :=
  (pieces bytes).map fun
    | .char c => c
    | .illFormed _ => replacement

/-- The bytes EF BB BF, which may stand before a text. -/
def byteOrderMark : List UInt8 := [0xEF, 0xBB, 0xBF]

/-- Takes the byte order mark off. A file that ends within the mark has no text. -/
def withoutMark (bytes : List UInt8) : List UInt8 :=
  if bytes.length < 3 && bytes.isPrefixOf byteOrderMark then []
  else if byteOrderMark.isPrefixOf bytes then bytes.drop 3
  else bytes

def encodeChars (s : List Char) : List UInt8 := s.flatMap String.utf8EncodeChar

def encode (s : String) : List UInt8 := encodeChars s.toList

@[simp] theorem encodeChars_append (s t : List Char) :
    encodeChars (s ++ t) = encodeChars s ++ encodeChars t := by
  simp [encodeChars]

@[simp] theorem encode_append (s t : String) : encode (s ++ t) = encode s ++ encode t := by
  simp [encode]

@[simp] theorem decodeLossy_nil : decodeLossy [] = [] := rfl

end WixAuthoring.Utf8
