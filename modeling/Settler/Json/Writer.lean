import Settler.Json.Value
import Settler.Decimal.Shortest
import Settler.Text.Quoted

/-!
Writing JSON text, in ASCII and without spaces.

Anything outside ASCII is written as escapes of UTF-16 code units.
-/

namespace Settler.Json

/-- The escape of one code unit. -/
def unitEscape (u : Nat) : List Char := '\\' :: 'u' :: Text.hexPadded 4 u

/-- How one character stands in a JSON string. -/
def escapeChar (c : Char) : List Char :=
  if c = '"' then ['\\', '"']
  else if c = '\\' then ['\\', '\\']
  else if c = '\n' then ['\\', 'n']
  else
    let n := c.toNat
    if 0x20 ≤ n && n < 0x7f then [c]
    else if n < 0x10000 then unitEscape n
    else
      let m := n - 0x10000
      unitEscape (0xd800 + m / 0x400) ++ unitEscape (0xdc00 + m % 0x400)

/-- How one glyph stands in a JSON string. -/
def escapeGlyph : Glyph → List Char
  | .char c => escapeChar c
  | g => unitEscape g.toNat

/-- A JSON string. -/
def writeText (s : Str) : String :=
  String.ofList ('"' :: s.glyphs.flatMap escapeGlyph ++ ['"'])

/-- A binary number; those that are not finite by their names. -/
def writeReal : Binary64 → String
  | .nan => "NaN"
  | .infinite negative => if negative then "-Infinity" else "Infinity"
  | x => Decimal.text x

mutual

/-- A value as JSON text. -/
def write : Json → String
  | .null => "null"
  | .bool b => if b then "true" else "false"
  | .int n => toString n
  | .real x => writeReal x
  | .text s => writeText s
  | .list items => "[" ++ ",".intercalate (writeItems items) ++ "]"
  | .object ms => "\x7b" ++ ",".intercalate (writeMembers ms) ++ "\x7d"

/-- The items of a list, each written. -/
def writeItems : List Json → List String
  | [] => []
  | j :: rest => write j :: writeItems rest

/-- The members of an object, each written as its name and its value. -/
def writeMembers : Members → List String
  | [] => []
  | (k, v) :: rest => (writeText k ++ ":" ++ write v) :: writeMembers rest

end

end Settler.Json
