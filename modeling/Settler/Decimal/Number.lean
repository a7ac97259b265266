import Settler.Decimal.Shortest

/-!
Numbers that are integers or binary numbers, as settings and scripts give them.

Mixed arithmetic first rounds the integer; an order between the two kinds is exact.
-/

namespace Settler

/-- An integer or a binary number. -/
inductive Number where
  | int (n : Int)
  | real (x : Binary64)
  deriving DecidableEq, Repr, Inhabited

namespace Number

/-- The number's text. -/
def text : Number → String
  | .int n => toString n
  | .real x => Decimal.text x

/-- The nearest binary number; infinite for integers beyond the largest one. -/
def toReal : Number → Binary64
  | .int n => .nearest n
  | .real x => x

/-- The difference; exact between integers. -/
def sub : Number → Number → Number
  | .int a, .int b => .int (a - b)
  | a, b => .real (a.toReal.sub b.toReal)

/-- The exact order of two numbers. -/
def compare? : Number → Number → Option Ordering
  | .int a, .int b => some (compare a b)
  | .int a, .real y => Binary64.compareFraction? a 1 y
  | .real x, .int b => (Binary64.compareFraction? b 1 x).map Ordering.swap
  | .real x, .real y => Binary64.compare? x y

/-- The first number is greater than the second. -/
def isGreater (a b : Number) : Bool := compare? a b == some .gt

end Number

end Settler
