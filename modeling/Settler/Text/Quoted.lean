import Settler.Text.Printable
import Settler.Text.Str

/-!
Quoted texts: a text between quotes, in which every character can be told.

The quote is single, unless the text has a single quote and no double one. A backslash and the
quote in use are written after a backslash, the common controls by their letter, and anything else
that is not printable by its code point in hexadecimal.
-/

namespace Settler.Text

/-- A number in lower-case hexadecimal, most significant digit first. -/
def hexDigits (n : Nat) : List Char := Nat.toDigits 16 n

/-- A number in lower-case hexadecimal, filled up with zeros to a width. -/
def hexPadded (width n : Nat) : List Char :=
  let ds := hexDigits n
  List.replicate (width - ds.length) '0' ++ ds

/-- The escape of a code point: two, four or eight digits. -/
def codeEscape (n : Nat) : List Char :=
  if n < 0x100 then '\\' :: 'x' :: hexPadded 2 n
  else if n < 0x10000 then '\\' :: 'u' :: hexPadded 4 n
  else '\\' :: 'U' :: hexPadded 8 n

/-- How one character stands between the given quotes. -/
def escape (quote c : Char) : List Char :=
  if c = '\\' then ['\\', '\\']
  else if c = quote then ['\\', c]
  else if c = '\n' then ['\\', 'n']
  else if c = '\r' then ['\\', 'r']
  else if c = '\t' then ['\\', 't']
  else if isPrintable c then [c]
  else codeEscape c.toNat

/-- How one glyph stands between the given quotes. -/
def escapeGlyph (quote : Char) : Glyph → List Char
  | .char c => escape quote c
  | g => codeEscape g.toNat

/-- The quote that a text is written between. -/
def quoteFor (s : Str) : Char :=
  if s.glyphs.contains (.char '\'') && !s.glyphs.contains (.char '"') then '"' else '\''

/-- The text between quotes. -/
def quoted (s : Str) : String :=
  let q := quoteFor s
  String.ofList (q :: s.glyphs.flatMap (escapeGlyph q) ++ [q])

/-- The text as a string, in which the code of a half of a pair stands in its place. -/
def legible (s : Str) : String :=
  String.ofList (s.glyphs.flatMap fun
    | .char c => [c]
    | g => codeEscape g.toNat)

end Settler.Text
