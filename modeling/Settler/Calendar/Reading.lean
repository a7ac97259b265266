import Settler.Calendar.Moment

/-!
Reading a moment from its text: a date, a time of day with an optional fraction of a second, and
an optional offset from UTC.
-/

namespace Settler.Calendar

/-- The number of a fixed count of leading ASCII digits, and the rest. -/
def fixed? : Nat → List Char → Option (Nat × List Char)
  | 0, s => some (0, s)
  | count + 1, c :: rest =>
    if c.isDigit then
      (fixed? count rest).map fun (n, rest) => ((c.toNat - '0'.toNat) * 10 ^ count + n, rest)
    else none
  | _ + 1, [] => none

/-- The rest of a text after a given first character. -/
def expect? (c : Char) : List Char → Option (List Char)
  | d :: rest => if c = d then some rest else none
  | [] => none

/-- The microseconds of a fraction's digits, cut after six, and the rest. -/
def fraction (s : List Char) : Nat × List Char :=
  let ds := s.takeWhile Char.isDigit
  let six := (ds ++ List.replicate 6 '0').take 6
  (six.foldl (fun n c => 10 * n + (c.toNat - '0'.toNat)) 0, s.dropWhile Char.isDigit)

/-- A time of day in microseconds: hours and minutes, then optional seconds with a fraction. -/
def time? (s : List Char) : Option (Nat × List Char) := do
  let (h, rest) ← fixed? 2 s
  let rest ← expect? ':' rest
  let (m, rest) ← fixed? 2 rest
  let base := (h * 60 + m) * minute
  match rest with
  | ':' :: rest =>
    let (s, rest) ← fixed? 2 rest
    match rest with
    | '.' :: rest =>
      let (micros, rest) := fraction rest
      return (base + s * second + micros, rest)
    | rest => return (base + s * second, rest)
  | rest => return (base, rest)

/-- An offset to the end of the text: absent, `Z`, or a signed time. -/
def offset? : List Char → Option (Option Int)
  | [] => some none
  | ['Z'] => some (some 0)
  | '+' :: rest => do
    let (t, rest) ← time? rest
    if rest.isEmpty then some (some (t : Int)) else none
  | '-' :: rest => do
    let (t, rest) ← time? rest
    if rest.isEmpty then some (some (-(t : Int))) else none
  | _ => none

/-- Reads a moment; a date alone is the start of its day. -/
def Moment.parse? (text : String) : Option Moment := do
  let (year, rest) ← fixed? 4 text.toList
  let rest ← expect? '-' rest
  let (month, rest) ← fixed? 2 rest
  let rest ← expect? '-' rest
  let (day, rest) ← fixed? 2 rest
  let d : Date := ⟨year, month, day⟩
  if !d.isValid then none
  else
    match rest with
    | [] => some ⟨d.toDay * wholeDay, none⟩
    | _ :: rest =>
      let (t, rest) ← time? rest
      let offset ← offset? rest
      some ⟨d.toDay * wholeDay + t, offset⟩

end Settler.Calendar
