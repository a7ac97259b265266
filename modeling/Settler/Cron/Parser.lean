import Settler.Cron.Schedule
import Settler.Fault.Basic
import Settler.Text.Digits

/-!
Reading cron expressions.

A field is a comma list of items. An item is a star, a value or a range of two values, and may have
a step after a slash. `Item` is what an item denotes: every value from its first to its last one, in
steps. A field's set is every value of the field that some item denotes.
-/

namespace Settler.Cron

open Settler.Text

/-- Why an expression is not a schedule. -/
inductive Defect where
  | fieldCount (count : Nat)
  | emptyItem (field : Field)
  | badValue (field : Field) (text : String)
  | badStep (field : Field)
  | badRange (field : Field) (first last : Int)
  deriving DecidableEq, Repr

namespace Defect

/-- The field at fault, if the fault is in one. -/
def field? : Defect → Option Field
  | .fieldCount _ => none
  | .emptyItem f => some f
  | .badValue f _ => some f
  | .badStep f => some f
  | .badRange f _ _ => some f

/-- The defect in words. -/
def message (expression : String) : Defect → String
  | .fieldCount count =>
    "Cron expression " ++ quoted expression ++ " must have 5 fields, got " ++ toString count
  | .emptyItem f => "Empty " ++ f.name ++ " list item in cron expression " ++ quoted expression
  | .badValue f text =>
    "Invalid " ++ f.name ++ " value " ++ quoted text ++ " in cron expression " ++ quoted expression
  | .badStep f => "Step must be positive for " ++ f.name ++ " in cron expression " ++ quoted expression
  | .badRange f first last =>
    f.name ++ " range " ++ toString first ++ "-" ++ toString last ++ " outside " ++ toString f.low
      ++ "-" ++ toString f.high ++ " in cron expression " ++ quoted expression

/-- The error that reports a defect of an expression. -/
def toError (expression : String) (d : Defect) : SchedulerError :=
  .make .schedule (d.message expression)
    (("expression", .text expression)
      :: (d.field?.map fun f => (↑"field", .text f.name)).toList)

end Defect

/-- Every value from the first to the last one, in steps. -/
structure Item where
  first : Nat
  last : Nat
  step : Nat
  deriving DecidableEq, Repr

/-- The item denotes the value. -/
def Item.denotes (i : Item) (v : Nat) : Bool :=
  i.first ≤ v && v ≤ i.last && (v - i.first) % i.step == 0

/-- A whole number in an item. -/
def number (f : Field) (s : List Char) : Except Defect Int :=
  match readInt? s with
  | some n => .ok n
  | none => .error (.badValue f (String.ofList s))

/-- The step after an item's first slash, 1 without one, and the item's body. -/
def stepOf (f : Field) (s : List Char) : Except Defect (List Char × Nat) :=
  match cut? '/' s with
  | none => .ok (s, 1)
  | some (body, step) => do
    let n ← number f step
    if n ≤ 0 then .error (.badStep f) else .ok (body, n.toNat)

/-- The first and last value of an item's body. A single value with a step other than 1 runs to the
end of the field. -/
def boundsOf (f : Field) (body : List Char) (step : Nat) : Except Defect (Int × Int) :=
  if body = ['*'] then .ok (f.low, f.high)
  else
    match cut? '-' body with
    | some (a, b) => do
      let first ← number f a
      let last ← number f b
      .ok (first, last)
    | none => do
      let first ← number f body
      .ok (first, if step = 1 then first else f.high)

/-- Reads one item of a field. -/
def parseItem (f : Field) (s : List Char) : Except Defect Item :=
  if s.isEmpty then .error (.emptyItem f)
  else do
    let (body, step) ← stepOf f s
    let (first, last) ← boundsOf f body step
    if first < f.low || last > f.high || first > last then .error (.badRange f first last)
    else .ok ⟨first.toNat, last.toNat, step⟩

/-- Reads the items of a field; the first defect wins. -/
def parseItems (f : Field) : List (List Char) → Except Defect (List Item)
  | [] => .ok []
  | s :: rest => do
    let i ← parseItem f s
    let is ← parseItems f rest
    .ok (i :: is)

/-- The values of a field that some item denotes, in order. -/
def valuesOf (f : Field) (items : List Item) : List Nat :=
  (List.range' f.low (f.high + 1 - f.low)).filter fun v => items.any (·.denotes v)

/-- Reads a field's set. -/
def parseField (f : Field) (s : List Char) : Except Defect (List Nat) :=
  (parseItems f (splitAt ',' s)).map (valuesOf f)

/-- The days of the week, with 7 read as 0. -/
def foldSunday (days : List Nat) : List Nat :=
  (List.range 7).filter fun d => days.contains d || (d == 0 && days.contains 7)

/-- Reads the five fields of a trimmed expression. -/
def parseFields (expression : String) : Except Defect Schedule :=
  match words expression.toList with
  | [mi, h, dm, mo, dw] => do
    let minutes ← parseField .minute mi
    let hours ← parseField .hour h
    let daysOfMonth ← parseField .dayOfMonth dm
    let months ← parseField .month mo
    let daysOfWeek ← parseField .dayOfWeek dw
    .ok { expression, minutes, hours, daysOfMonth, months
          daysOfWeek := foldSunday daysOfWeek
          dayOfMonthRestricted := dm != ['*']
          dayOfWeekRestricted := dw != ['*'] }
  | ws => .error (.fieldCount ws.length)

/-- Reads an expression, with blanks around it. -/
def Schedule.parse (text : String) : Except SchedulerError Schedule :=
  let expression := trimmed text
  (parseFields expression).mapError (·.toError expression)

/-- Reads the expression of an optional schedule: a blank text stands for none. -/
def Schedule.parseOptional (text : String) : Except SchedulerError (Option Schedule) :=
  if isBlankText text then .ok none else (Schedule.parse text).map some

end Settler.Cron
