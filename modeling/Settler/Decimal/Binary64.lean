/-!
Binary floating-point numbers of 64 bits, as exact values.

A finite number is a sign, a mantissa below 2⁵³ and an exponent not below -1074. Every operation
is the exact one on fractions followed by `ofFraction`, which rounds to the nearest such number and
a tie to the even mantissa. Nothing here depends on the machine's own arithmetic.
-/

namespace Settler

/-- A 64-bit binary floating-point number: ± mantissa · 2^exponent, an infinity, or not a number. -/
inductive Binary64 where
  | finite (negative : Bool) (mantissa : Nat) (exponent : Int)
  | infinite (negative : Bool)
  | nan
  deriving DecidableEq, Repr, Inhabited

namespace Binary64

/-- The least exponent of a finite number. -/
def minExponent : Int := -1074

/-- The greatest exponent of a finite number. -/
def maxExponent : Int := 971

/-- A zero of either sign. -/
def zero (negative : Bool) : Binary64 := .finite negative 0 minExponent

/-- The fraction `num / den` divided by `2 ^ e`, as a numerator and a denominator. -/
def scaled (num den : Nat) (e : Int) : Nat × Nat :=
  if 0 ≤ e then (num, den * Nat.pow 2 e.toNat) else (num * Nat.pow 2 (-e).toNat, den)

/-- The quotient rounded to the nearest whole number, a tie to the even one. -/
def roundDiv (num den : Nat) : Nat :=
  let q := num / den
  let r := num % den
  if den < 2 * r || (2 * r == den && q % 2 == 1) then q + 1 else q

/-- The exponent at which a positive fraction has a whole part of 53 bits, or the least exponent. -/
def exponentFor (num den : Nat) : Int :=
  let e := max ((num.log2 : Int) - den.log2 - 53) minExponent
  let (n, d) := scaled num den e
  if Nat.pow 2 53 ≤ n / d then e + 1 else e

/-- The number nearest to `± num / den`, a tie to the even mantissa; beyond the largest finite
number it is infinite. -/
def ofFraction (negative : Bool) (num den : Nat) : Binary64 :=
  if num = 0 then zero negative
  else
    let e := exponentFor num den
    let (n, d) := scaled num den e
    let m := roundDiv n d
    let (m, e) := if m = Nat.pow 2 53 then (Nat.pow 2 52, e + 1) else (m, e)
    if maxExponent < e then .infinite negative else .finite negative m e

/-- The exact value of a finite number, as a numerator and a positive denominator. -/
def fraction? : Binary64 → Option (Int × Nat)
  | .finite negative m e =>
    let (n, d) := scaled m 1 (-e)
    -- dividing by 2^(-e) multiplies by 2^e
    some (if negative then -(n : Int) else n, d)
  | _ => none

/-- The number nearest to a signed fraction; an exact zero is positive. -/
def ofSigned (num : Int) (den : Nat) : Binary64 := ofFraction (num < 0) num.natAbs den

/-- The number nearest to an integer. -/
def nearest (n : Int) : Binary64 := ofSigned n 1

/-- The sign bit; not a number counts as positive. -/
def isNegative : Binary64 → Bool
  | .finite negative _ _ => negative
  | .infinite negative => negative
  | .nan => false

/-- A zero of either sign. -/
def isZero : Binary64 → Bool
  | .finite _ m _ => m == 0
  | _ => false

/-- The number nearest to an integer, if that is finite. -/
def ofInt? (n : Int) : Option Binary64 :=
  match nearest n with
  | .finite negative m e => some (.finite negative m e)
  | _ => none

/-- The number with the opposite sign. -/
def neg : Binary64 → Binary64
  | .finite negative m e => .finite (!negative) m e
  | .infinite negative => .infinite (!negative)
  | .nan => .nan

/-- The sum, rounded once. -/
def add (x y : Binary64) : Binary64 :=
  match x, y with
  | .nan, _ => .nan
  | _, .nan => .nan
  | .infinite a, .infinite b => if a = b then .infinite a else .nan
  | .infinite a, .finite .. => .infinite a
  | .finite .., .infinite b => .infinite b
  | .finite a m e, .finite b n f =>
    let low := min e f
    let term (negative : Bool) (m : Nat) (e : Int) : Int :=
      let size : Int := m * Nat.pow 2 (e - low).toNat
      if negative then -size else size
    let total := term a m e + term b n f
    let (num, den) := scaled total.natAbs 1 (-low)
    if total = 0 then zero (a && b) else ofFraction (total < 0) num den

/-- The difference, rounded once. -/
def sub (x y : Binary64) : Binary64 := add x (neg y)

/-- The product, rounded once. -/
def mul (x y : Binary64) : Binary64 :=
  match x, y with
  | .finite a m e, .finite b n f =>
    let (num, den) := scaled (m * n) 1 (-(e + f))
    ofFraction (a != b) num den
  | x, y =>
    if x = .nan || y = .nan || x.isZero || y.isZero then .nan
    else .infinite (x.isNegative != y.isNegative)

/-- The quotient by a positive whole number, rounded once. -/
def divNat (x : Binary64) (k : Nat) : Binary64 :=
  match x with
  | .finite a m e =>
    let (num, den) := scaled m 1 (-e)
    ofFraction a num (den * k)
  | x => x

/-- Where an exact fraction stands beside a number; there is no answer for not a number. -/
def compareFraction? (num : Int) (den : Nat) : Binary64 → Option Ordering
  | .nan => none
  | .infinite negative => some (if negative then .gt else .lt)
  | .finite negative m e =>
    let (n, d) := scaled m 1 (-e)
    let n : Int := if negative then -(n : Int) else n
    some (compare (num * d) (n * den))

/-- The order of two numbers; zeros are equal, and not a number has no order. -/
def compare? (x y : Binary64) : Option Ordering :=
  match x, y with
  | .nan, _ => none
  | .infinite _, .nan => none
  | .infinite a, .infinite b =>
    some (if a = b then .eq else if a then .lt else .gt)
  | .infinite a, .finite .. => some (if a then .lt else .gt)
  | .finite negative m e, y =>
    let (n, d) := scaled m 1 (-e)
    compareFraction? (if negative then -(n : Int) else n) d y

/-- The whole part of a finite number, toward zero. -/
def truncate? (x : Binary64) : Option Int :=
  x.fraction?.map fun (n, d) => n.tdiv d

/-- The integer that a finite number without a fractional part denotes. -/
def toInt? (x : Binary64) : Option Int := do
  let (n, d) ← x.fraction?
  if n % d = 0 then some (n / d) else none

/-- The nearest integer to a finite number, a tie to the even one. -/
def roundToInt? (x : Binary64) : Option Int :=
  x.fraction?.map fun (n, d) =>
    let size := roundDiv n.natAbs d
    if n < 0 then -(size : Int) else size

end Binary64

end Settler
