import Settler.Text.Blank

/-!
Decimal digits of every script, and whole numbers written with them.

A written number is digits with single underscores between them, after at most one sign and
between any blanks. `readInt?` takes the digits of every script; a reader that takes only ASCII
digits passes `asciiDigit?` to `digits?`.
-/

namespace Settler.Text

/-- The code points of the digit zero in each script that has decimal digits; the other nine
digits of the script follow it in order. -/
def digitZeros : List Nat :=
  [0x30, 0x660, 0x6f0, 0x7c0, 0x966, 0x9e6, 0xa66, 0xae6, 0xb66, 0xbe6,
   0xc66, 0xce6, 0xd66, 0xde6, 0xe50, 0xed0, 0xf20, 0x1040, 0x1090, 0x17e0,
   0x1810, 0x1946, 0x19d0, 0x1a80, 0x1a90, 0x1b50, 0x1bb0, 0x1c40, 0x1c50, 0xa620,
   0xa8d0, 0xa900, 0xa9d0, 0xa9f0, 0xaa50, 0xabf0, 0xff10, 0x104a0, 0x10d30, 0x11066,
   0x110f0, 0x11136, 0x111d0, 0x112f0, 0x11450, 0x114d0, 0x11650, 0x116c0, 0x11730, 0x118e0,
   0x11950, 0x11c50, 0x11d50, 0x11da0, 0x16a60, 0x16ac0, 0x16b50, 0x1d7ce, 0x1d7d8, 0x1d7e2,
   0x1d7ec, 0x1d7f6, 0x1e140, 0x1e2f0, 0x1e950, 0x1fbf0]

/-- The value of a decimal digit of any script. -/
def digitValue? (c : Char) : Option Nat :=
  (digitZeros.find? fun z => z ≤ c.toNat && c.toNat < z + 10).map (c.toNat - ·)

/-- The value of an ASCII digit. -/
def asciiDigit? (c : Char) : Option Nat :=
  if c.isDigit then some (c.toNat - '0'.toNat) else none

/-- The values of one or more digits with single underscores between them. -/
def digits? (digit? : Char → Option Nat) : List Char → Option (List Nat)
  | [] => none
  | [c] => (digit? c).map ([·])
  | c :: '_' :: rest => do
    let d ← digit? c
    let ds ← digits? digit? rest
    return d :: ds
  | c :: d :: rest => do
    let x ← digit? c
    let xs ← digits? digit? (d :: rest)
    return x :: xs

/-- The number that digits denote, most significant first. -/
def ofDigits (ds : List Nat) : Nat := ds.foldl (fun n d => 10 * n + d) 0

/-- The most digits that a number may be read from or written with. -/
def digitLimit : Nat := 4300

/-- A leading sign and what follows it; a text without a sign counts as positive. -/
def splitSign : List Char → Bool × List Char
  | '-' :: rest => (true, rest)
  | '+' :: rest => (false, rest)
  | s => (false, s)

/-- The integer with a sign and a size. -/
def signed (negative : Bool) (n : Nat) : Int := if negative then -(n : Int) else n

/-- Reads a whole number between white space: an optional sign, then digits of any script with single
underscores between them, at most `digitLimit` of them. -/
def readInt? (s : List Char) : Option Int := do
  let (negative, body) := splitSign (trimBy isSpace s)
  let ds ← digits? digitValue? body
  if ds.length ≤ digitLimit then some (signed negative (ofDigits ds)) else none

end Settler.Text
