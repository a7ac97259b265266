import Settler.Validation.Report
import Settler.Decimal.Reading

/-!
Lenient readers of single values.

A whole number may come as an integer, a truth value, a binary number without a fraction in the
64-bit range, or a text of ASCII digits. Texts are never made from anything else, and a text that
holds half of a surrogate pair is read as nothing.
-/

namespace Settler.Validation

open Settler.Text

/-- The whole part of a text and what follows its first point, if it has one. -/
def splitPoint (s : List Char) : List Char × Option (List Char) :=
  match cut? '.' s with
  | some (whole, part) => (whole, some part)
  | none => (s, none)

/-- Reads an integer from a text: white space, a sign, digits with single underscores, and perhaps a
fraction of zeros. -/
def integerText (s : List Char) : Except Complaint Int :=
  let (negative, body) := splitSign (trimBy isSpace s)
  let (whole, part) := splitPoint body
  let zeros :=
    match part with
    | none => true
    | some ds => !ds.isEmpty && ds.all (· == '0')
  match digits? asciiDigit? whole with
  | some ds =>
    if !zeros then .error .intParsing
    else if digitLimit < ds.length then .error .intSize
    else .ok (signed negative (ofDigits ds))
  | none => .error .intParsing

/-- The first integer beyond the 64-bit range. -/
def intLimit : Int := Nat.pow 2 63

/-- The integer of a binary number without a fraction, strictly inside the 64-bit range. -/
def integerReal (x : Binary64) : Except Complaint Int :=
  match x.fraction? with
  | none => .error .notFinite
  | some _ =>
    match x.toInt? with
    | none => .error .intFraction
    | some n => if -intLimit < n && n < intLimit then .ok n else .error .intSize

/-- Reads a text that is a string. -/
def ofString {α : Type} (read : String → Except Complaint α) (s : Str) : Except Complaint α :=
  match s.string? with
  | some t => read t
  | none => .error .textUnicode

/-- Reads an integer. -/
def integer : Json → Except Complaint Int
  | .int n => .ok n
  | .bool b => .ok (if b then 1 else 0)
  | .real x => integerReal x
  | .text s => ofString (fun t => integerText t.toList) s
  | _ => .error .intType

/-- Reads an integer that is not negative. -/
def natural (j : Json) : Except Complaint Nat := do
  let n ← integer j
  if n < 0 then .error .negative else .ok n.toNat

/-- Reads a binary number from a text. -/
def realText (s : String) : Except Complaint Binary64 :=
  match Decimal.readBy? isSpace asciiDigit? s.toList with
  | some x => .ok x
  | none => .error .realParsing

/-- Reads a binary number. -/
def real : Json → Except Complaint Binary64
  | .int n =>
    match Binary64.ofInt? n with
    | some x => .ok x
    | none => .error .realType
  | .bool b => .ok (.nearest (if b then 1 else 0))
  | .real x => .ok x
  | .text s => ofString realText s
  | _ => .error .realType

/-- The words for true, in lower case. -/
def trueWords : List String := ["1", "true", "t", "yes", "y", "on"]

/-- The words for false, in lower case. -/
def falseWords : List String := ["0", "false", "f", "no", "n", "off"]

/-- Reads a truth value from a number. -/
def truthNumber (n : Int) : Except Complaint Bool :=
  if n = 1 then .ok true else if n = 0 then .ok false else .error .boolParsing

/-- Reads a truth value from a text. -/
def truthText (s : String) : Except Complaint Bool :=
  let word := s.map Char.toLower
  if trueWords.contains word then .ok true
  else if falseWords.contains word then .ok false
  else .error .boolParsing

/-- Reads a truth value. -/
def truth : Json → Except Complaint Bool
  | .bool b => .ok b
  | .int n => if -intLimit ≤ n && n < intLimit then truthNumber n else .error .boolType
  | .real x =>
    match integerReal x with
    | .ok n => truthNumber n
    | .error _ => .error .boolType
  | .text s => ofString truthText s
  | _ => .error .boolType

/-- Reads a text. -/
def text : Json → Except Complaint String
  | .text s => ofString .ok s
  | _ => .error .textType

end Settler.Validation
