import Settler.Settlement.Operation
import Settler.Summary.Table
import Settler.Fault.Basic
import Settler.Journal.Note

/-!
Workers as machines.

A worker works in turns. A turn is what it does without waiting for anyone: it changes, leaves
notes, and says what it wants next. What it gets for that begins the next turn. A worker has no
hold on the world but these wants, so what it does is a function of the replies it gets.
-/

namespace Settler

open Settler.Settlement

/-- How a run ended. -/
inductive Exit where
  /-- Done, also when there was nothing left to do. -/
  | normal
  /-- Stopped on a failure that the worker knows; the next trigger is the retry. -/
  | faulted
  /-- Cut short by a fault. -/
  | crashed
  deriving DecidableEq, Repr

/-- The exit's name. -/
def Exit.label : Exit → String
  | .normal => "normal"
  | .faulted => "faulted"
  | .crashed => "crashed"

/-- What a worker wants next. -/
inductive Next (δ : Type) where
  | pause (span : δ)
  /-- To wait for nothing, for ever. -/
  | hold
  | ask (op : Operation)
  | post (s : Summary)
  | exit (e : Exit)
  | fail (f : Fault)
  deriving Repr

/-- What a worker gets for what it wanted. -/
inductive Reply where
  | rested
  | answered (a : Answer)
  | posted

/-- A turn: the worker after it, the notes that it left, and what it wants next. -/
structure Turn (ω δ : Type) where
  worker : ω
  notes : List Note := []
  next : Next δ

/-- A type of workers with pauses of type `δ`. -/
class Machine (ω : Type) (δ : outParam Type) where
  /-- The first turn. -/
  begin : ω → Turn ω δ
  /-- The turn after a reply. -/
  resume : ω → Reply → Turn ω δ

end Settler
