import Settler.Json.Value
import Settler.Decimal.Reading

/-!
Reading JSON text.

The reader takes the standard grammar and, besides it, the names of the numbers that are not
finite, and halves of surrogate pairs in strings. A number without point and exponent is an integer
of at most `Text.digitLimit` digits; any other is the nearest binary number. `parse?` takes a whole
text, with white space around it.
-/

namespace Settler.Json

open Settler.Text Settler.Decimal

/-- JSON white space. -/
def isJsonSpace (c : Char) : Bool := c == ' ' || c == '\t' || c == '\n' || c == '\r'

/-- The text after its leading white space. -/
def skipSpace (s : List Glyph) : List Glyph := s.dropWhile fun g => g.char?.any isJsonSpace

/-- The value of a hexadecimal digit. -/
def hexValue? (c : Char) : Option Nat :=
  if '0' ≤ c && c ≤ '9' then some (c.toNat - '0'.toNat)
  else if 'a' ≤ c && c ≤ 'f' then some (c.toNat - 'a'.toNat + 10)
  else if 'A' ≤ c && c ≤ 'F' then some (c.toNat - 'A'.toNat + 10)
  else none

/-- The code unit of four hexadecimal digits. -/
def hexUnit? (a b c d : Char) : Option Nat := do
  let a ← hexValue? a
  let b ← hexValue? b
  let c ← hexValue? c
  let d ← hexValue? d
  return ((a * 16 + b) * 16 + c) * 16 + d

/-- The character that a one-letter escape stands for. -/
def simpleEscape? : Char → Option Char
  | '"' => some '"'
  | '\\' => some '\\'
  | '/' => some '/'
  | 'b' => some '\x08'
  | 'f' => some '\x0c'
  | 'n' => some '\n'
  | 'r' => some '\r'
  | 't' => some '\t'
  | _ => none

/-- A piece of a string: the code unit that an escape of four digits names, or a glyph. -/
inductive Piece where
  | unit (u : Nat)
  | glyph (g : Glyph)

/-- The pieces of a string up to its closing quote, and the rest. -/
def pieces? : List Glyph → Option (List Piece × List Glyph)
  | [] => none
  | .char '"' :: rest => some ([], rest)
  | .char '\\' :: .char 'u' :: .char a :: .char b :: .char c :: .char d :: rest => do
    let unit ← hexUnit? a b c d
    let (pieces, rest) ← pieces? rest
    return (.unit unit :: pieces, rest)
  | .char '\\' :: .char e :: rest => do
    let c ← simpleEscape? e
    let (pieces, rest) ← pieces? rest
    return (.glyph (.char c) :: pieces, rest)
  | g :: rest =>
    if g.toNat < 0x20 || g = .char '\\' then none
    else do
      let (pieces, rest) ← pieces? rest
      return (.glyph g :: pieces, rest)

/-- The first unit of a pair that stands for one character. -/
def isHighSurrogate (u : Nat) : Bool := 0xd800 ≤ u && u ≤ 0xdbff

/-- The second unit of such a pair. -/
def isLowSurrogate (u : Nat) : Bool := 0xdc00 ≤ u && u ≤ 0xdfff

/-- The glyphs that pieces stand for: a pair of escapes is one character. Any other half of a pair stands
alone. -/
def joined : List Piece → List Glyph
  | [] => []
  | .unit u :: .unit v :: rest =>
    if isHighSurrogate u && isLowSurrogate v then
      .ofNat (0x10000 + (u - 0xd800) * 0x400 + (v - 0xdc00)) :: joined rest
    else .ofNat u :: joined (.unit v :: rest)
  | .unit u :: rest => .ofNat u :: joined rest
  | .glyph g :: rest => g :: joined rest

/-- A string after its opening quote. -/
def string? (s : List Glyph) : Option (Str × List Glyph) :=
  (pieces? s).map fun (pieces, rest) => (⟨joined pieces⟩, rest)

/-- The leading ASCII digits and the rest. -/
def takeDigits (s : List Char) : List Char × List Char := (s.takeWhile Char.isDigit, s.dropWhile Char.isDigit)

/-- The number that ASCII digits denote. -/
def numberOf (ds : List Char) : Nat := ofDigits (ds.map fun c => c.toNat - '0'.toNat)

/-- A fraction part, if a digit follows the point: its digits and the rest. -/
def fractionPart (s : List Char) : Option (List Char × List Char) :=
  match s with
  | '.' :: rest =>
    let (ds, rest) := takeDigits rest
    if ds.isEmpty then none else some (ds, rest)
  | _ => none

/-- An exponent part, if a digit follows its letter and sign: its value and the rest. -/
def exponentPart (s : List Char) : Option (Int × List Char) :=
  match s with
  | c :: rest =>
    if c = 'e' || c = 'E' then
      let (negative, rest) := splitSign rest
      let (ds, rest) := takeDigits rest
      if ds.isEmpty then none else some (signed negative (numberOf ds), rest)
    else none
  | [] => none

/-- A number after its sign: an integer unless a fraction or an exponent part follows. -/
def number? (negative : Bool) (s : List Char) : Option (Json × List Char) :=
  let (whole, rest) :=
    match s with
    | '0' :: rest => (['0'], rest)
    | s => takeDigits s
  if whole.isEmpty then none
  else
    let (part, rest, isReal) :=
      match fractionPart rest with
      | some (ds, rest) => (ds, rest, true)
      | none => ([], rest, false)
    let (k, rest, isReal) :=
      match exponentPart rest with
      | some (k, rest) => (k, rest, true)
      | none => ((0 : Int), rest, isReal)
    if isReal then
      some (.real (ofDecimal negative (numberOf (whole ++ part)) (k - part.length)), rest)
    else if whole.length ≤ digitLimit then
      some (.int (signed negative (numberOf whole)), rest)
    else none

/-- The rest of a text after a word at its start. -/
def after? (word s : List Char) : Option (List Char) :=
  if word.isPrefixOf s then some (s.drop word.length) else none

/-- The constants: their words and their values. -/
def constants : List (List Char × Json) :=
  [("null".toList, .null), ("true".toList, .bool true), ("false".toList, .bool false),
   ("NaN".toList, .real .nan), ("Infinity".toList, .real (.infinite false)),
   ("-Infinity".toList, .real (.infinite true))]

/-- A constant or a number at the start of a text. -/
def atom? (s : List Char) : Option (Json × List Char) :=
  match constants.findSome? fun (word, j) => (after? word s).map (j, ·) with
  | some found => some found
  | none =>
    match s with
    | '-' :: rest => number? true rest
    | s => number? false s

/-- The characters before the first half of a pair, and the rest. -/
def splitChars : List Glyph → List Char × List Glyph
  | .char c :: rest => ((c :: (splitChars rest).1), (splitChars rest).2)
  | rest => ([], rest)

mutual

/-- A value at the start of a text; the first argument bounds the depth of the search. -/
def value? : Nat → List Glyph → Option (Json × List Glyph)
  | 0, _ => none
  | fuel + 1, s =>
    match s with
    | .char '"' :: rest => (string? rest).map fun (t, rest) => (.text t, rest)
    | .char '[' :: rest =>
      match skipSpace rest with
      | .char ']' :: rest => some (.list [], rest)
      | rest => (items? fuel rest).map fun (js, rest) => (.list js, rest)
    | .char '\x7b' :: rest =>
      match skipSpace rest with
      | .char '\x7d' :: rest => some (.object [], rest)
      | rest => (members? fuel [] rest).map fun (ms, rest) => (.object ms, rest)
    | s =>
      let (chars, others) := splitChars s
      (atom? chars).map fun (j, rest) => (j, rest.map .char ++ others)

/-- One or more items up to the closing bracket. -/
def items? : Nat → List Glyph → Option (List Json × List Glyph)
  | 0, _ => none
  | fuel + 1, s => do
    let (j, rest) ← value? fuel s
    match skipSpace rest with
    | .char ']' :: rest => return ([j], rest)
    | .char ',' :: rest =>
      let (js, rest) ← items? fuel (skipSpace rest)
      return (j :: js, rest)
    | _ => none

/-- One or more members up to the closing brace, put into those read before. -/
def members? : Nat → Members → List Glyph → Option (Members × List Glyph)
  | 0, _, _ => none
  | fuel + 1, sofar, s =>
    match s with
    | .char '"' :: rest => do
      let (name, rest) ← string? rest
      match skipSpace rest with
      | .char ':' :: rest =>
        let (j, rest) ← value? fuel (skipSpace rest)
        let sofar := put name j sofar
        match skipSpace rest with
        | .char '\x7d' :: rest => return (sofar, rest)
        | .char ',' :: rest => members? fuel sofar (skipSpace rest)
        | _ => none
      | _ => none
    | _ => none

end

/-- The value of a whole text, with white space around it. -/
def parse? (s : Str) : Option Json :=
  match value? (s.glyphs.length + 1) (skipSpace s.glyphs) with
  | some (j, rest) => if (skipSpace rest).isEmpty then some j else none
  | none => none

end Settler.Json
