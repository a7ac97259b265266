import Settler.Text.Str

/-!
What a refusal by the settlement service means.

The service gives its reasons as free text. A reason that holds the transient confirmation text may
be tried again; one that holds a marker says that there is no further record; any other is
unexpected. The transient text wins over a marker.
-/

namespace Settler.Settlement

/-- What a refusal means. -/
inductive FailureKind where
  | retryable
  | exhausted
  | unexpected
  /-- The work was done before, or will be tried at the next trigger. -/
  | noop
  deriving DecidableEq, Repr

/-- The kind's name in log lines and counters. -/
def FailureKind.label : FailureKind → String
  | .retryable => "retryable"
  | .exhausted => "terminal_exhaustion"
  | .unexpected => "unexpected"
  | .noop => "idempotent_noop"

/-- The ledger dropped the transaction or let it expire: paying the same epoch again is safe. -/
def transientText : String :=
  "Unhandled Solana RPC error: unable to confirm transaction. This can happen in situations such "
    ++ "as transaction expiration and insufficient fee-payer funds"

/-- The texts that say that the record of an epoch does not exist. -/
def exhaustedMarkers : List String := ["Record account not found at address", "Failed to fetch record"]

/-- What the refusal of a payment means. -/
def paymentFailure (reason : Str) : FailureKind :=
  if reason.contains transientText then .retryable
  else if exhaustedMarkers.any reason.contains then .exhausted
  else .unexpected

/-- What the refusal of an initialization means: the next trigger is the retry, whatever it says. -/
def initializationFailure (_reason : Str) : FailureKind := .noop

/-- The outcome of a payment, with its refusals told apart. -/
inductive Outcome (α : Type) where
  | success (value : α)
  | retryable (reason : Str)
  | terminal (reason : Str)
  | unexpected (reason : Str)
  deriving DecidableEq, Repr

/-- Tells the refusals of a payment apart. -/
def Outcome.ofPayment {α : Type} : Except Str α → Outcome α
  | .ok value => .success value
  | .error reason =>
    match paymentFailure reason with
    | .retryable => .retryable reason
    | .exhausted => .terminal reason
    | _ => .unexpected reason

end Settler.Settlement
