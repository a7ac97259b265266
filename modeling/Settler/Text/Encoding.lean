import Settler.Text.Str

/-!
Character encodings: reading bytes as text.

`Encoding.decode` gives, in order, each glyph and a `none` for each maximal run of bytes that starts
a character but cannot be one. Halves of surrogate pairs are ill-formed like any other, unless they
are let through. `passing?` lets them through and refuses a text with any other ill-formed run;
`lossy` puts the replacement character in the place of every one.
-/

namespace Settler.Text

/-- The order of the bytes in a unit. -/
inductive ByteOrder where
  | big
  | little
  deriving DecidableEq, Repr

/-- A character encoding. The wide ones may leave their byte order to a mark at the start. -/
inductive Encoding where
  | ascii
  | latin1
  | windows1252
  | utf8
  /-- UTF-8 after a mark, if there is one. -/
  | utf8Marked
  | utf16 (order : Option ByteOrder)
  | utf32 (order : Option ByteOrder)
  deriving DecidableEq, Repr

namespace Encoding

/-! ### UTF-8 -/

/-- A character of which some bytes have been read: how many are to come, the range of the next
one, and the bits so far. -/
structure Begun where
  owed : Nat
  low : Nat
  high : Nat
  bits : Nat
  deriving DecidableEq, Repr

/-- What the first byte of a character says: a character, nothing, or that more is to come. -/
def firstByte (halves : Bool) (b : Nat) : List (Option Glyph) × Option Begun :=
  if b < 0x80 then ([some (.ofNat b)], none)
  else if b < 0xc2 then ([none], none)
  else if b < 0xe0 then ([], some ⟨1, 0x80, 0xbf, b - 0xc0⟩)
  else if b = 0xe0 then ([], some ⟨2, 0xa0, 0xbf, 0⟩)
  else if b = 0xed then ([], some ⟨2, 0x80, if halves then 0xbf else 0x9f, 0xd⟩)
  else if b < 0xf0 then ([], some ⟨2, 0x80, 0xbf, b - 0xe0⟩)
  else if b = 0xf0 then ([], some ⟨3, 0x90, 0xbf, 0⟩)
  else if b < 0xf4 then ([], some ⟨3, 0x80, 0xbf, b - 0xf0⟩)
  else if b = 0xf4 then ([], some ⟨3, 0x80, 0x8f, 4⟩)
  else ([none], none)

/-- Reads one byte. A byte that does not continue the character begun ends it as ill-formed and is
itself a first byte. -/
def nextByte (halves : Bool) (begun : Option Begun) (b : Nat) : List (Option Glyph) × Option Begun :=
  match begun with
  | none => firstByte halves b
  | some s =>
    if s.low ≤ b && b ≤ s.high then
      let bits := s.bits * 64 + (b - 0x80)
      if s.owed ≤ 1 then ([some (.ofNat bits)], none)
      else ([], some ⟨s.owed - 1, 0x80, 0xbf, bits⟩)
    else
      let next := firstByte halves b
      (none :: next.1, next.2)

/-- The glyphs of UTF-8 bytes, after a character begun. -/
def utf8From (halves : Bool) (begun : Option Begun) : List UInt8 → List (Option Glyph)
  | [] => if begun.isSome then [none] else []
  | b :: rest =>
    let next := nextByte halves begun b.toNat
    next.1 ++ utf8From halves next.2 rest

/-! ### Wide units -/

/-- The two-byte units, and whether a byte is left over. -/
def units16 (order : ByteOrder) : List UInt8 → List Nat × Bool
  | [] => ([], false)
  | [_] => ([], true)
  | a :: b :: rest =>
    let tail := units16 order rest
    let unit := match order with
      | .big => a.toNat * 256 + b.toNat
      | .little => b.toNat * 256 + a.toNat
    (unit :: tail.1, tail.2)

/-- The unit opens a pair. -/
def opensPair (u : Nat) : Bool := 0xd800 ≤ u && u < 0xdc00

/-- The unit closes a pair. -/
def closesPair (u : Nat) : Bool := 0xdc00 ≤ u && u < 0xe000

/-- The glyph of a code point that is half of a pair, if such halves are let through. -/
def alone (halves : Bool) (u : Nat) : Option Glyph := if halves then some (.ofNat u) else none

/-- The glyphs of two-byte units, with or without a byte left over at the end. -/
def ofUnits16 (halves leftOver : Bool) : List Nat → List (Option Glyph)
  | [] => if leftOver then [none] else []
  | [u] =>
    -- What is left over belongs to the ill-formed run that a first half begins.
    if opensPair u then alone halves u :: (if halves && leftOver then [none] else [])
    else if closesPair u then alone halves u :: ofUnits16 halves leftOver []
    else some (.ofNat u) :: ofUnits16 halves leftOver []
  | u :: v :: rest =>
    if opensPair u then
      if closesPair v then
        some (.ofNat (0x10000 + (u - 0xd800) * 0x400 + (v - 0xdc00))) :: ofUnits16 halves leftOver rest
      else alone halves u :: ofUnits16 halves leftOver (v :: rest)
    else if closesPair u then alone halves u :: ofUnits16 halves leftOver (v :: rest)
    else some (.ofNat u) :: ofUnits16 halves leftOver (v :: rest)

/-- The glyph of a code point, if it has one. -/
def ofCodePoint (halves : Bool) (n : Nat) : Option Glyph :=
  if n.isValidChar then some (.ofNat n)
  else if opensPair n || closesPair n then alone halves n
  else none

/-- The glyphs of four-byte units. -/
def ofUnits32 (halves : Bool) (order : ByteOrder) : List UInt8 → List (Option Glyph)
  | [] => []
  | a :: b :: c :: d :: rest =>
    let value (w x y z : UInt8) : Nat :=
      ((w.toNat * 256 + x.toNat) * 256 + y.toNat) * 256 + z.toNat
    let unit := match order with
      | .big => value a b c d
      | .little => value d c b a
    ofCodePoint halves unit :: ofUnits32 halves order rest
  | _ => [none]

/-- The glyphs of two-byte units in a byte order. -/
def wide16 (halves : Bool) (order : ByteOrder) (bytes : List UInt8) : List (Option Glyph) :=
  let units := units16 order bytes
  ofUnits16 halves units.2 units.1

/-- The characters of the upper bytes 80 to 9f in the Windows code page. -/
def windowsUpper : List (Option Char) :=
  [some '€', none, some '‚', some 'ƒ', some '„', some '…', some '†', some '‡',
   some 'ˆ', some '‰', some 'Š', some '‹', some 'Œ', none, some 'Ž', none,
   none, some '‘', some '’', some '“', some '”', some '•', some '–', some '—',
   some '˜', some '™', some 'š', some '›', some 'œ', none, some 'ž', some 'Ÿ']

/-- Reads bytes as text: each glyph, and a `none` for each run of bytes that is none. -/
def decode (e : Encoding) (halves : Bool) (bytes : List UInt8) : List (Option Glyph) :=
  match e with
  | .ascii => bytes.map fun b => if b < 0x80 then some (.ofNat b.toNat) else none
  | .latin1 => bytes.map fun b => some (.ofNat b.toNat)
  | .windows1252 => bytes.map fun b =>
    if 0x80 ≤ b && b < 0xa0 then (windowsUpper[b.toNat - 0x80]?).join.map .char
    else some (.ofNat b.toNat)
  | .utf8 => utf8From halves none bytes
  | .utf8Marked =>
    match bytes with
    | 0xef :: 0xbb :: 0xbf :: rest => utf8From halves none rest
    | _ => utf8From halves none bytes
  | .utf16 (some order) => wide16 halves order bytes
  | .utf16 none =>
    match bytes with
    | 0xfe :: 0xff :: rest => wide16 halves .big rest
    | 0xff :: 0xfe :: rest => wide16 halves .little rest
    | _ => wide16 halves .little bytes
  | .utf32 (some order) => ofUnits32 halves order bytes
  | .utf32 none =>
    match bytes with
    | 0 :: 0 :: 0xfe :: 0xff :: rest => ofUnits32 halves .big rest
    | 0xff :: 0xfe :: 0 :: 0 :: rest => ofUnits32 halves .little rest
    | _ => ofUnits32 halves .little bytes

/-- The text of bytes, in which halves of pairs may stand alone, but nothing else that is
ill-formed. -/
def passing? (e : Encoding) (bytes : List UInt8) : Option Str := ((e.decode true bytes).mapM id).map .mk

/-- The characters of bytes, with a replacement character for each ill-formed run. -/
def lossy (e : Encoding) (bytes : List UInt8) : List Char :=
  (e.decode false bytes).map fun g => (g.bind Glyph.char?).getD '\ufffd'

/-! ### Choosing an encoding -/

/-- The encoding of a JSON text, told by its mark or else by which of its first bytes are zero. -/
def sniff : List UInt8 → Encoding
  | 0 :: 0 :: 0xfe :: 0xff :: _ => .utf32 none
  | 0xff :: 0xfe :: 0 :: 0 :: _ => .utf32 none
  | 0xfe :: 0xff :: _ => .utf16 none
  | 0xff :: 0xfe :: _ => .utf16 none
  | 0xef :: 0xbb :: 0xbf :: _ => .utf8Marked
  | a :: b :: c :: d :: _ =>
    if a = 0 then if b = 0 then .utf32 (some .big) else .utf16 (some .big)
    else if b = 0 then if c = 0 && d = 0 then .utf32 (some .little) else .utf16 (some .little)
    else .utf8
  | [a, b] =>
    if a = 0 then .utf16 (some .big) else if b = 0 then .utf16 (some .little) else .utf8
  | _ => .utf8

/-- The names of an encoding, in lower case and with a hyphen between their parts. -/
def names : List (Encoding × List String) :=
  [(.ascii, ["ascii", "us-ascii", "646", "ansi-x3.4-1968", "iso646-us"]),
   (.latin1, ["latin-1", "latin1", "latin", "l1", "iso-8859-1", "iso8859-1", "8859", "cp819"]),
   (.windows1252, ["windows-1252", "cp1252", "1252"]),
   (.utf8, ["utf-8", "utf8", "u8", "utf", "cp65001"]),
   (.utf8Marked, ["utf-8-sig"]),
   (.utf16 none, ["utf-16", "utf16", "u16"]),
   (.utf16 (some .big), ["utf-16-be", "utf-16be"]),
   (.utf16 (some .little), ["utf-16-le", "utf-16le"]),
   (.utf32 none, ["utf-32", "utf32", "u32"]),
   (.utf32 (some .big), ["utf-32-be", "utf-32be"]),
   (.utf32 (some .little), ["utf-32-le", "utf-32le"])]

/-- The encoding of a name; case does not count, and an underscore is as good as a hyphen. -/
def ofName? (name : String) : Option Encoding :=
  let plain := name.map fun c => if c = '_' || c = ' ' then '-' else c.toLower
  (names.find? fun e => e.2.contains plain).map (·.1)

end Encoding

end Settler.Text
