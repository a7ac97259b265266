import Settler.Metrics.Registry
import Settler.Decimal.Shortest

/-!
The lines that expose the metrics: a name, labels in braces, and a number.

A positive number with more than six digits before its point is written with an exponent.
-/

namespace Settler.Registry

open Settler.Decimal

/-- Whole numbers of more digits than this are written with an exponent. -/
def wholeDigits : Int := 6

/-- A number's text in an exposed line. -/
def exposed : Binary64 → String
  | .nan => "NaN"
  | .infinite negative => if negative then "-Inf" else "+Inf"
  | .finite negative m e =>
    let x := shortest m e
    if !negative && m != 0 && wholeDigits ≤ x.exponent && x.exponent < 16 then
      String.ofList (scientific x)
    else text (.finite negative m e)

/-- A label value between its quotes. -/
def escapeLabel (s : String) : String :=
  String.ofList (s.toList.flatMap fun c =>
    if c = '\\' then ['\\', '\\'] else if c = '"' then ['\\', '"']
    else if c = '\n' then ['\\', 'n'] else [c])

/-- The line of a series. -/
def seriesLine (s : Series) (n : Nat) : String :=
  let pairs := (s.metric.labels.zip s.values).map fun (l, v) => l ++ "=\"" ++ escapeLabel v ++ "\""
  s.metric.name ++ "\x7b" ++ ",".intercalate pairs ++ "\x7d " ++ exposed (.nearest n)

/-- Every line, in order. -/
def lines (r : Registry) : List String :=
  let counts := r.counts.map fun (s, n) => seriesLine s n
  let gauges := r.gauges.map fun (m, x) => m.name ++ " " ++ exposed x
  (counts ++ gauges).mergeSort fun a b => !(b < a)

end Settler.Registry
