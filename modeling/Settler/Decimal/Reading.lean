import Settler.Decimal.Binary64
import Settler.Text.Digits

/-!
Reading decimal text as a binary number.

A decimal is digits, a point and an exponent; `ofDecimal` rounds its exact value once. Huge
exponents are decided without writing the power of ten out.
-/

namespace Settler.Decimal

open Settler.Text

/-- The number nearest to `± n · 10^k`. Outside the exponents of finite numbers the answer is
zero or infinite whatever the digits are. -/
def ofDecimal (negative : Bool) (n : Nat) (k : Int) : Binary64 :=
  if n = 0 then .zero negative
  else
    let top : Int := k + (Nat.toDigits 10 n).length
    if top < -330 then .zero negative
    else if 310 < top then .infinite negative
    else if 0 ≤ k then Binary64.ofFraction negative (n * Nat.pow 10 k.toNat) 1
    else Binary64.ofFraction negative n (Nat.pow 10 (-k).toNat)

/-- A run of digits with single underscores between them, possibly empty, and the rest. -/
def digitRun (digit? : Char → Option Nat) : List Char → List Nat × List Char
  | [] => ([], [])
  | [c] =>
    match digit? c with
    | some d => ([d], [])
    | none => ([], [c])
  | c :: '_' :: n :: rest =>
    match digit? c, digit? n with
    | some d, some _ =>
      let (ds, rest) := digitRun digit? (n :: rest)
      (d :: ds, rest)
    | some d, none => ([d], '_' :: n :: rest)
    | none, _ => ([], c :: '_' :: n :: rest)
  | c :: n :: rest =>
    match digit? c with
    | some d =>
      let (ds, rest) := digitRun digit? (n :: rest)
      (d :: ds, rest)
    | none => ([], c :: n :: rest)

/-- The exponent part of a decimal: absent, or the letter and a signed run of digits to the end. -/
def exponent? (digit? : Char → Option Nat) : List Char → Option Int
  | [] => some 0
  | c :: rest =>
    if c = 'e' || c = 'E' then
      let (negative, rest) := splitSign rest
      match digitRun digit? rest with
      | ([], _) => none
      | (ds, []) => some (signed negative (ofDigits ds))
      | _ => none
    else none

/-- The names of the numbers that are not finite, in lower case. -/
def special? : List Char → Option (Bool → Binary64)
  | ['i', 'n', 'f'] => some .infinite
  | ['i', 'n', 'f', 'i', 'n', 'i', 't', 'y'] => some .infinite
  | ['n', 'a', 'n'] => some fun _ => .nan
  | _ => none

/-- Reads a number between the given blanks: a sign, then digits with an optional point and
exponent, or the name of an infinity or of not a number in any case. -/
def readBy? (blank : Char → Bool) (digit? : Char → Option Nat) (s : List Char) : Option Binary64 :=
  let (negative, body) := splitSign (trimBy blank s)
  match special? (body.map Char.toLower) with
  | some make => some (make negative)
  | none => do
    let (whole, rest) := digitRun digit? body
    let (part, rest) :=
      match rest with
      | '.' :: rest => digitRun digit? rest
      | rest => ([], rest)
    if whole.isEmpty && part.isEmpty then none
    else
      let k ← exponent? digit? rest
      some (ofDecimal negative (ofDigits (whole ++ part)) (k - part.length))

/-- Reads a number between white space, with digits of any script. -/
def read? (s : List Char) : Option Binary64 := readBy? isSpace digitValue? s

end Settler.Decimal
