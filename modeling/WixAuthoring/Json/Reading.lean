import WixAuthoring.Json.Value
import WixAuthoring.Text.Digit
import WixAuthoring.Text.Quoted
import WixAuthoring.Text.Split

namespace WixAuthoring.Json

/-!
# Reading JSON

A reader takes a value off the front of a text and leaves the rest. Numbers have neither fraction nor
exponent; a character outside the basic plane may be written as a pair of escapes.
-/

open Text

def isSpace (c : Char) : Bool := c == ' ' || c == '\t' || c == '\n' || c == '\r'

def skipSpace (s : List Char) : List Char := s.dropWhile isSpace

def isHighSurrogate (unit : Nat) : Bool := 0xD800 ≤ unit && unit < 0xDC00

def isLowSurrogate (unit : Nat) : Bool := 0xDC00 ≤ unit && unit < 0xE000

/-- The character that two escaped units stand for together. -/
def ofSurrogates (high low : Nat) : Char :=
  Char.ofNat (0x10000 + (high - 0xD800) * 0x400 + (low - 0xDC00))

/-- The character of a short escape. -/
def shortEscape? (c : Char) : Option Char :=
  if c = doubleQuote || c = backslash || c = '/' then some c
  else if c = 'n' then some '\n'
  else if c = 'r' then some '\r'
  else if c = 't' then some '\t'
  else if c = 'b' then some (Char.ofNat 8)
  else if c = 'f' then some (Char.ofNat 12)
  else none

/-- One character of a quoted text, or the end of it. -/
inductive TextStep where
  | done (rest : List Char)
  | char (c : Char) (rest : List Char)

def escapedUnit? : List Char → Option (Nat × List Char)
  | a :: b :: c :: d :: rest => (hexNumeral? [a, b, c, d]).map fun unit ↦ (unit, rest)
  | _ => none

/-- What the units after an escape mark stand for. -/
def readUnits (s : List Char) : Option TextStep :=
  match escapedUnit? s with
  | none => none
  | some (unit, rest) =>
    if isHighSurrogate unit then
      match (after? [backslash, 'u'] rest).bind escapedUnit? with
      | some (low, rest) =>
        if isLowSurrogate low then some (.char (ofSurrogates unit low) rest) else none
      | none => none
    else if isLowSurrogate unit then none
    else some (.char (Char.ofNat unit) rest)

def readStep : List Char → Option TextStep
  | [] => none
  | c :: s =>
    if c = doubleQuote then some (.done s)
    else if c = backslash then
      match s with
      | 'u' :: s => readUnits s
      | e :: s => (shortEscape? e).map fun c ↦ .char c s
      | [] => none
    else if c.toNat < 32 then none
    else some (.char c s)

/-- The text up to the closing quote. -/
def readText : (fuel : Nat) → List Char → Option (List Char × List Char)
  | 0, _ => none
  | fuel + 1, s =>
    match readStep s with
    | none => none
    | some (.done rest) => some ([], rest)
    | some (.char c rest) => (readText fuel rest).map fun (text, rest) ↦ (c :: text, rest)

def isFractional : List Char → Bool
  | c :: _ => c == '.' || c == 'e' || c == 'E'
  | [] => false

def readNatural : List Char → Option (Nat × List Char)
  | '0' :: rest => if isFractional rest then none else some (0, rest)
  | s =>
    let rest := s.dropWhile isDigit
    if s.takeWhile isDigit = [] || isFractional rest then none
    else some (numeral (s.takeWhile isDigit), rest)

def readInteger : List Char → Option (Int × List Char)
  | '-' :: s => (readNatural s).map fun (n, rest) ↦ (-(n : Int), rest)
  | s => (readNatural s).map fun (n, rest) ↦ ((n : Int), rest)

def readWord (s : List Char) : Option (Value × List Char) :=
  (after? "null".toList s).map (fun rest ↦ (Value.null, rest))
    <|> (after? "true".toList s).map (fun rest ↦ (Value.boolean true, rest))
    <|> (after? "false".toList s).map (fun rest ↦ (Value.boolean false, rest))

mutual

def readValue : (fuel : Nat) → List Char → Option (Value × List Char)
  | 0, _ => none
  | fuel + 1, s =>
    match skipSpace s with
    | '[' :: s =>
      match skipSpace s with
      | ']' :: rest => some (.list [], rest)
      | s => (readItems fuel s).map fun (items, rest) ↦ (.list items, rest)
    | '\x7b' :: s =>
      match skipSpace s with
      | '\x7d' :: rest => some (.object [], rest)
      | s => (readFields fuel s).map fun (fields, rest) ↦ (.object fields, rest)
    | '\x22' :: s =>
      (readText (s.length + 1) s).map fun (text, rest) ↦ (.text (String.ofList text), rest)
    | s => readWord s <|> (readInteger s).map fun (n, rest) ↦ (.integer n, rest)

/-- The items up to the closing bracket. -/
def readItems : (fuel : Nat) → List Char → Option (List Value × List Char)
  | 0, _ => none
  | fuel + 1, s =>
    match readValue fuel s with
    | none => none
    | some (value, rest) =>
      match skipSpace rest with
      | ']' :: rest => some ([value], rest)
      | ',' :: rest => (readItems fuel rest).map fun (items, rest) ↦ (value :: items, rest)
      | _ => none

/-- The fields up to the closing brace. -/
def readFields : (fuel : Nat) → List Char → Option (List (String × Value) × List Char)
  | 0, _ => none
  | fuel + 1, s =>
    match skipSpace s with
    | '\x22' :: s =>
      match readText (s.length + 1) s with
      | none => none
      | some (key, rest) =>
        match skipSpace rest with
        | ':' :: rest =>
          match readValue fuel rest with
          | none => none
          | some (value, rest) =>
            let field := (String.ofList key, value)
            match skipSpace rest with
            | '\x7d' :: rest => some ([field], rest)
            | ',' :: rest => (readFields fuel rest).map fun (fields, rest) ↦ (field :: fields, rest)
            | _ => none
        | _ => none
    | _ => none

end

/-- The value that a whole text stands for. -/
def parse? (s : String) : Option Value :=
  match readValue (s.toList.length + 1) s.toList with
  | some (value, rest) => if skipSpace rest = [] then some value else none
  | none => none

end WixAuthoring.Json
