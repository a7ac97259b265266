import Settler.Decimal.Number

/-!
Instants of the daemon's clock, and spans of time in seconds.

The clock counts whole microseconds from start-up. A type of spans says which spans are pauses at
all, when a pause ends, and whether more than a span has passed between two instants. Settings give
spans as `Number`s, whose arithmetic is that of binary numbers of seconds; `Micros` are exact.
-/

namespace Settler

/-- Microseconds since start-up. -/
abbrev Instant := Nat

/-- Spans of time, as pauses and windows use them. -/
class Seconds (δ : Type) where
  /-- A pause of this span takes time; any other only lets others go first. -/
  takesTime : δ → Bool
  /-- The instant at which a pause that starts now ends; none if it never does. -/
  wake? : Instant → δ → Option Instant
  /-- More than the span has passed from the earlier instant to now. -/
  exceeds : (now earlier : Instant) → δ → Bool
  /-- The span as log lines show it. -/
  text : δ → String

/-- The clock's reading in seconds, as a binary number. -/
def Instant.seconds (t : Instant) : Binary64 := (Binary64.nearest t).divNat 1000000

/-- The whole microseconds nearest to an instant that lies a number of seconds after another. -/
def wakeAfter (now : Instant) (span : Number) : Option Instant :=
  let due := (now.seconds.add span.toReal).mul (.nearest 1000000)
  due.roundToInt?.map Int.toNat

instance : Seconds Number where
  takesTime d := d.isGreater (.int 0)
  wake? := wakeAfter
  exceeds now earlier window :=
    (Number.sub (.real now.seconds) (.real earlier.seconds)).isGreater window
  text := Number.text

/-- A span in whole microseconds. -/
structure Micros where
  count : Int
  deriving DecidableEq, Repr

instance : Seconds Micros where
  takesTime d := 0 < d.count
  wake? now d := some (now + d.count.toNat)
  exceeds now earlier window := window.count < (now : Int) - earlier
  text d := toString d.count

end Settler
