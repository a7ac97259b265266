import Settler.Decimal.Binary64

/-!
The shortest decimal digits that read back as a given binary number, and their layouts.

`shortest` looks at the decimal grids of 1, 2, … 17 significant digits in turn. On each grid it
tests the two points next to the value; the first grid with a point that rounds to the number wins,
and of two such points the nearer one. Everything is exact arithmetic on whole numbers.
-/

namespace Settler.Decimal

/-- Significant decimal digits `d₁d₂…` (no trailing zero) standing for `d₁.d₂… · 10^exponent`. -/
structure Digits where
  digits : List Nat
  exponent : Int
  deriving DecidableEq, Repr

/-- The fraction `num / den` divided by `10 ^ k`. -/
def scaleTen (num den : Nat) (k : Int) : Nat × Nat :=
  if 0 ≤ k then (num, den * Nat.pow 10 k.toNat) else (num * Nat.pow 10 (-k).toNat, den)

/-- The greatest `k` with `10 ^ k ≤ num / den`, found upwards from a start that is low enough. -/
def tenExponent (num den : Nat) : Nat → Int → Int
  | 0, k => k
  | fuel + 1, k =>
    let (n, d) := scaleTen num den (k + 1)
    if d ≤ n then tenExponent num den fuel (k + 1) else k

/-- The decimal exponent of a positive fraction. -/
def exponentOf (num den : Nat) : Int :=
  let bits : Int := (num.log2 : Int) - den.log2
  -- one binary digit is a little more than 3/10 of a decimal one
  tenExponent num den 4 (((bits - 1) * 30103).fdiv 100000 - 1)

/-- The half-way points around `m · 2^e`, as numerators over `den`, and the value itself: all four
times the fraction, so that they are whole. -/
structure Neighbourhood where
  low : Nat
  value : Nat
  high : Nat
  den : Nat
  closed : Bool

/-- The reals that round to a positive finite number. The gap below a power of two is half as
wide as the gap above it. The ends belong to it when the mantissa is even. -/
def neighbourhood (m : Nat) (e : Int) : Neighbourhood :=
  let narrow := m == Nat.pow 2 52 && Binary64.minExponent < e
  let scale (k : Nat) : Nat := (Binary64.scaled k 1 (-e)).1
  let den := 4 * (Binary64.scaled 1 1 (-e)).2
  { low := scale (4 * m - (if narrow then 1 else 2))
    value := scale (4 * m)
    high := scale (4 * m + 2)
    den := den
    closed := m % 2 == 0 }

/-- The grid point `c · 10^k` rounds to the number in the middle of the neighbourhood. -/
def Neighbourhood.holds (b : Neighbourhood) (c : Nat) (k : Int) : Bool :=
  let (n, d) := scaleTen c 1 (-k)
  let point := n * b.den
  if b.closed then b.low * d ≤ point && point ≤ b.high * d
  else b.low * d < point && point < b.high * d

/-- The point of the grid of step `10^k` that is nearest to the value among those that round to
it; a tie goes to the even one. -/
def Neighbourhood.hit? (b : Neighbourhood) (k : Int) : Option Nat :=
  let (n, d) := scaleTen b.value b.den k
  let below := n / d
  let r := n % d
  let above := below + 1
  match b.holds below k, b.holds above k with
  | true, true =>
    if 2 * r < d || (2 * r == d && below % 2 == 0) then some below else some above
  | true, false => some below
  | false, true => some above
  | false, false => none

/-- The decimal digits of a number, most significant first. -/
def digitsOf (n : Nat) : List Nat := (Nat.toDigits 10 n).map (·.toNat - '0'.toNat)

/-- A list of digits without its trailing zeros. -/
def dropTrailingZeros (ds : List Nat) : List Nat := (ds.reverse.dropWhile (· == 0)).reverse

/-- Tries the grids of `size`, `size + 1`, … digits. -/
def search (b : Neighbourhood) (top : Int) : Nat → Nat → Option Nat × Int
  | 0, size => (none, top - size)
  | fuel + 1, size =>
    let k := top - ((size : Int) - 1)
    match b.hit? k with
    | some c => (some c, k)
    | none => search b top fuel (size + 1)

/-- The fewest digits that read back as the positive number `m · 2^e`, and of those the nearest. -/
def shortest (m : Nat) (e : Int) : Digits :=
  let b := neighbourhood m e
  let (c, k) := search b (exponentOf b.value b.den) 17 1
  let ds := digitsOf (c.getD 0)
  { digits := dropTrailingZeros ds, exponent := k + ((ds.length : Int) - 1) }

/-- A digit as a character. -/
def digitChar (d : Nat) : Char := Char.ofNat ('0'.toNat + d)

/-- The digits with a point: at least one digit on either side of it. -/
def positional (x : Digits) : List Char :=
  let ds := x.digits.map digitChar
  if x.exponent < 0 then
    '0' :: '.' :: List.replicate ((-x.exponent).toNat - 1) '0' ++ ds
  else
    let whole := x.exponent.toNat + 1
    let front := ds.take whole ++ List.replicate (whole - ds.length) '0'
    let back := ds.drop whole
    front ++ '.' :: (if back.isEmpty then ['0'] else back)

/-- An exponent with its sign and at least two digits. -/
def exponentText (e : Int) : List Char :=
  let ds := Nat.toDigits 10 e.natAbs
  'e' :: (if e < 0 then '-' else '+') :: (List.replicate (2 - ds.length) '0' ++ ds)

/-- The digits with a point after the first one, if more follow, and an exponent. -/
def scientific (x : Digits) : List Char :=
  match x.digits.map digitChar with
  | [] => ['0']
  | d :: rest => d :: (if rest.isEmpty then [] else '.' :: rest) ++ exponentText x.exponent

/-- A number's text: positional for exponents from -4 to 15, always with a point there, and
scientific beyond. -/
def text : Binary64 → String
  | .nan => "nan"
  | .infinite negative => if negative then "-inf" else "inf"
  | .finite negative m e =>
    let sign := if negative then ['-'] else []
    if m = 0 then String.ofList (sign ++ ['0', '.', '0'])
    else
      let x := shortest m e
      String.ofList (sign ++ if -4 ≤ x.exponent && x.exponent < 16 then positional x else scientific x)

end Settler.Decimal
