import Settler.Validation.Lenient

/-!
Debt collections: what the settlement service reports for one paid epoch.
-/

namespace Settler.Settlement

open Settler.Validation

/-- The outcome of paying one epoch's debt. -/
structure Collection where
  totalDebt : Nat
  totalPaid : Nat
  insufficientFunds : Nat
  validators : Nat
  deriving DecidableEq, Repr, Inhabited

namespace Collection

/-- The model's name in reports. -/
def modelName : String := "DebtCollection"

/-- A field that has to be there. -/
def required (whole : Json) (name : String) : Checked Nat :=
  match whole.get? name with
  | some j => .ofField 0 name j (natural j)
  | none => .ofField 0 name whole (.error .missing)

/-- A field that is 0 when it is not there. -/
def optional (whole : Json) (name : String) : Checked Nat :=
  match whole.get? name with
  | some j => .ofField 0 name j (natural j)
  | none => pure 0

/-- The fields of an object, in order; others are ignored. -/
def fields (whole : Json) : Checked Collection := do
  let totalDebt ← required whole "total_debt"
  let totalPaid ← required whole "total_paid"
  let insufficientFunds ← required whole "insufficient_funds_count"
  let validators ← optional whole "total_validators"
  return { totalDebt, totalPaid, insufficientFunds, validators }

/-- Reads a collection, or reports why the value is none. -/
def validate (j : Json) : Except Report Collection :=
  match j with
  | .object _ => (fields j).result modelName
  | j => .error ⟨modelName, [⟨none, .notObject, j⟩]⟩

end Collection

end Settler.Settlement
