import WixAuthoring.Text.Hexadecimal
import WixAuthoring.Text.Printable

namespace WixAuthoring.Text

/-!
# Quoted text

Diagnostics show a text between quotes, with a backslash before whatever could be misread. Single
quotes are used, unless the text has single quotes and no double ones.
-/

def backslash : Char := Char.ofNat 92

def singleQuote : Char := Char.ofNat 39

def doubleQuote : Char := Char.ofNat 34

/-- A character with no glyph of its own, by its number. -/
def escapeByNumber (c : Char) : List Char :=
  if c.toNat < 0x100 then backslash :: 'x' :: hexadecimal 2 c.toNat
  else if c.toNat < 0x10000 then backslash :: 'u' :: hexadecimal 4 c.toNat
  else backslash :: 'U' :: hexadecimal 8 c.toNat

def quoteChar (quote c : Char) : List Char :=
  if c = quote || c = backslash then [backslash, c]
  else if c = '\n' then [backslash, 'n']
  else if c = '\r' then [backslash, 'r']
  else if c = '\t' then [backslash, 't']
  else if isPrintable c then [c]
  else escapeByNumber c

def quoteMark (s : List Char) : Char :=
  if s.contains singleQuote && !s.contains doubleQuote then doubleQuote else singleQuote

def quoteChars (s : List Char) : List Char :=
  quoteMark s :: s.flatMap (quoteChar (quoteMark s)) ++ [quoteMark s]

def quote (s : String) : String := String.ofList (quoteChars s.toList)

end WixAuthoring.Text
