import Settler.Fault.Basic
import Settler.Journal.Note

/-!
Outcomes that are to come: what someone who asks is told, when, and what is noted then.
-/

namespace Settler

/-- When an outcome comes in. -/
inductive Latency (δ : Type) where
  /-- At once, before anyone else can go on. -/
  | immediate
  /-- After a pause. -/
  | after (span : δ)
  /-- Never. -/
  | never
  deriving DecidableEq, Repr

/-- An outcome that is to come. -/
structure Pending (δ α : Type) where
  latency : Latency δ := .immediate
  outcome : Except Fault α
  /-- What is noted when the outcome comes in. -/
  notes : List Note := []
  /-- What is noted instead if nobody waits for the outcome any more. -/
  abandoned : List Note := []

/-- An outcome that comes in at once and leaves no notes. -/
def Pending.now {δ α : Type} (outcome : Except Fault α) : Pending δ α := { outcome }

end Settler
