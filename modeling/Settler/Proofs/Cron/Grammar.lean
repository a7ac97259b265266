import Mathlib.Data.List.Forall2
import Settler.Calendar.Moment
import Settler.Cron.Parser
import Settler.Proofs.Text.Pieces

/-!
The grammar of cron expressions, and what an expression stands for.

An expression is five tokens between blanks, one for each field. A token joins its terms with commas,
and a term is a body that a slash and a step may follow. The grammar says which texts write a term and
which values the term yields; nothing of it mentions how a text is read.
-/

namespace Settler.Cron

open Settler.Text Settler.Calendar

/-! ### Terms -/

/-- The body of a term. -/
inductive Body where
  | star
  | range (first last : Int)
  | single (value : Int)

/-- A term of a field: its body, and how far apart its values are. -/
structure Term where
  body : Body
  step : Nat

namespace Body

/-- The text writes the body: a range has its two values around its first dash. -/
inductive Spelled : Body → List Char → Prop where
  | star : Spelled .star ['*']
  | range {a b : List Char} {first last : Int} (dashless : '-' ∉ a)
      (first_read : readInt? a = some first) (last_read : readInt? b = some last) :
      Spelled (.range first last) (a ++ '-' :: b)
  | single {s : List Char} {value : Int} (dashless : '-' ∉ s) (read : readInt? s = some value) :
      Spelled (.single value) s

/-- Every value written in the body is one of the field's, and a range does not run backwards. -/
def Fits (f : Field) : Body → Prop
  | star => True
  | range first last => f.low ≤ first ∧ first ≤ last ∧ last ≤ f.high
  | single value => f.low ≤ value ∧ value ≤ f.high

/-- The value that the body's values start from. -/
def first (f : Field) : Body → Int
  | star => f.low
  | range first _ => first
  | single value => value

/-- The value that the body's values do not pass: a single value that has a step other than 1 runs to
the end of the field. -/
def last (f : Field) (step : Nat) : Body → Int
  | star => f.high
  | range _ last => last
  | single value => if step = 1 then value else f.high

theorem fits_iff {f : Field} (step : Nat) (b : Body) :
    b.Fits f ↔ f.low ≤ b.first f ∧ b.last f step ≤ f.high ∧ b.first f ≤ b.last f step := by
  have order : (f.low : Int) ≤ f.high := by cases f <;> decide
  cases b with
  | star => simp [Fits, first, last, order]
  | range a b =>
    simp only [Fits, first, last]
    omega
  | single a =>
    simp only [Fits, first, last]
    split <;> omega

end Body

namespace Term

/-- The text writes the term: the step, 1 or more, comes after the first slash; without a slash it is
1. -/
inductive Spelled : Term → List Char → Prop where
  | plain {b : Body} {s : List Char} (slashless : '/' ∉ s) (body : b.Spelled s) : Spelled ⟨b, 1⟩ s
  | stepped {b : Body} {s t : List Char} {n : Nat} (slashless : '/' ∉ s) (body : b.Spelled s)
      (step : readInt? t = some n) (pos : 1 ≤ n) : Spelled ⟨b, n⟩ (s ++ '/' :: t)

/-- The term yields the value: it is some steps from the body's first value, and not past its last. -/
def Yields (f : Field) (t : Term) (v : Nat) : Prop :=
  ∃ k : Nat, (v : Int) = t.body.first f + k * t.step ∧ v ≤ t.body.last f t.step

end Term

/-- The token is the terms in order, with commas between them. -/
def Listed (ts : List Term) (token : List Char) : Prop :=
  ∃ pieces : List (List Char), pieces ≠ [] ∧ (∀ p ∈ pieces, ',' ∉ p) ∧
    [','].intercalate pieces = token ∧ List.Forall₂ Term.Spelled ts pieces

/-! ### Expressions -/

namespace Field

/-- The greatest value that the field has once 7 is read as Sunday. -/
def top : Field → Nat
  | .dayOfWeek => 6
  | f => f.high

/-- A written value as a schedule has it: as a day of the week, 7 is Sunday again. -/
def fold : Field → Nat → Nat
  | .dayOfWeek, v => if v = 7 then 0 else v
  | _, v => v

end Field

/-- What a text writes as a cron expression: a token for each field, and its terms. -/
structure Expression where
  token : Field → List Char
  terms : Field → List Term

namespace Expression

/-- The text writes the expression. -/
structure Written (e : Expression) (text : String) : Prop where
  spaced : Spaced text.toList (Field.all.map e.token)
  listed : ∀ f, Listed (e.terms f) (e.token f)
  fits : ∀ f, ∀ t ∈ e.terms f, t.body.Fits f

/-- Some term of the field yields the value. -/
def Allows (e : Expression) (f : Field) (v : Nat) : Prop :=
  ∃ t ∈ e.terms f, ∃ w, t.Yields f w ∧ v = f.fold w

/-- The field is written as nothing but a star. -/
def Starred (e : Expression) (f : Field) : Prop := e.token f = ['*']

/-- The expression picks out the moment: its minute, hour and month, and its day either by both day
fields or, if neither is a star, by one of them. -/
def Picks (e : Expression) (m : Moment) : Prop :=
  e.Allows .minute (m.wall / minute % 60) ∧ e.Allows .hour (m.wall / minute / 60 % 24) ∧
    e.Allows .month m.date.month ∧
      let ofMonth := e.Allows .dayOfMonth m.date.day
      let ofWeek := e.Allows .dayOfWeek (weekday (m.wall / wholeDay))
      (ofMonth ∧ ofWeek) ∨ (¬ e.Starred .dayOfMonth ∧ ¬ e.Starred .dayOfWeek ∧ (ofMonth ∨ ofWeek))

end Expression

/-- The schedule's values of a field. -/
def Schedule.values (s : Schedule) : Field → List Nat
  | .minute => s.minutes
  | .hour => s.hours
  | .dayOfMonth => s.daysOfMonth
  | .month => s.months
  | .dayOfWeek => s.daysOfWeek

/-- The schedule is what the expression stands for. -/
structure Schedule.Means (s : Schedule) (e : Expression) : Prop where
  values : ∀ f v, v ∈ s.values f ↔ e.Allows f v
  nonempty : ∀ f, s.values f ≠ []
  inRange : ∀ f, ∀ v ∈ s.values f, f.low ≤ v ∧ v ≤ f.top
  starred : ∀ f, e.Starred f → ∀ v, f.low ≤ v → v ≤ f.top → v ∈ s.values f
  matching : ∀ m, s.matchesMoment m ↔ e.Picks m

end Settler.Cron
