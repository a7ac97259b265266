import Settler.Settlement.Operation
import Settler.Http.Exchange
import Settler.Time.Pending

/-!
The settlement service over HTTP.

An operation is one POST of the ledger endpoints and the operation's parameters. A body that is a
JSON object with a member `ok` is an answer whatever the status: `result` if `ok` counts as true,
else the refusal in `error`. Anything else is a broken call, which is noted and becomes a refusal
too. `conclude` turns what came of the exchange into the answer and the notes on it.
-/

namespace Settler.Settlement

open Settler.Http

/-- How the service is reached, and the ledger endpoints that it is given. -/
structure Wire where
  base : Url
  ledgerRpc : String
  solanaRpc : String
  deriving Repr

namespace Wire

/-- The request for an operation. -/
def request (w : Wire) (op : Operation) : Request :=
  .post (w.base.below ("v1/" ++ op.name).toList)
    (.object (("ledger_rpc", .text w.ledgerRpc) :: ("solana_rpc", .text w.solanaRpc) :: op.params))

/-- The most characters of a body that is no JSON that a refusal shows. -/
def shownBody : Nat := 200

/-- The fault of a body that does not answer an operation. -/
def malformed (op : Operation) (r : Received) (message : Str) : Fault :=
  .scheduler (.make .malformed message [("operation", .text op.name), ("status_code", .int r.status)])

/-- The answering object in a response's body, or the fault of a body that holds none. What a refusal shows
of a body that is no JSON has to be read as text, which can fail. -/
def readBody (op : Operation) (r : Received) : Except Fault Json.Members :=
  match r.json? with
  | none => do
    let text ← r.text
    throw (malformed op r (op.name ++ ": HTTP " ++ toString r.status ++ ": " ++ text.take shownBody))
  | some (.object ms) =>
    if (Json.lookup "ok" ms).isSome then .ok ms
    else .error (malformed op r (op.name ++ ": unexpected response body"))
  | some _ => .error (malformed op r (op.name ++ ": unexpected response body"))

/-- The answering object that comes of the exchange, or the fault that the call meets. -/
def reception (op : Operation) : Except Fault Received → Except Fault Json.Members
  | .ok r => readBody op r
  | .error (.transport kind message) =>
    .error (.scheduler (.make .transport (op.name ++ ": " ++ kind ++ ": " ++ message)
      [("operation", .text op.name)]))
  | .error f => .error f

/-- The error that breaks a call, if the fault is one: a failure on the way, or a body without an answer. -/
def breaking? : Fault → Option SchedulerError
  | .scheduler e => if e.family == .transport || e.family == .malformed then some e else none
  | _ => none

/-- What an answering object says: its result, or the reason of the refusal. -/
def verdict (op : Operation) (ms : Json.Members) : Except Str Json :=
  if ((Json.lookup "ok" ms).getD .null).isTruthy then .ok ((Json.lookup "result" ms).getD .null)
  else
    let reason := (Json.lookup "error" ms).getD .null
    .error (if reason.isTruthy then reason.plain
      else op.name ++ ": settlement service returned no error text")

/-- The integer that a result stands for as an epoch, if it stands for one; a fraction is cut off. -/
def epochOf? : Json → Except Fault (Option Int)
  | .int n => .ok (some n)
  | .bool b => .ok (some (if b then 1 else 0))
  | .real (.infinite _) => .error .infiniteInteger
  | .real x => .ok x.truncate?
  | .text s => .ok (s.string?.bind fun t => Text.readInt? t.toList)
  | _ => .ok none

/-- The answer in a result. -/
def payload (op : Operation) (result : Json) : Except Fault Answer :=
  match op with
  | .payDebt epoch =>
    match Collection.validate result with
    | .ok c => .ok (.ok (.batch c))
    | .error report =>
      .ok (.error ("pay_debt: malformed debt collection for epoch " ++ toString epoch ++ ": "
        ++ report.message : String))
  | .initializeDistribution =>
    .ok (.ok (.message (.text (match result with
      | .null => ""
      | j => j.plain))))
  | .currentEpoch =>
    match epochOf? result with
    | .error f => .error f
    | .ok none => .ok (.error ("current_epoch: expected an integer epoch, got " ++ result.shown))
    | .ok (some n) =>
      if n < 0 then .ok (.error ("current_epoch: negative epoch " ++ toString n))
      else .ok (.ok (.epoch n))
  | _ => .ok (.ok .done)

/-- The note on how long an operation's exchange took. -/
def timing (op : Operation) : Note := .timing ("settlement." ++ op.name) op.params

/-- The note that counts a call by its result. -/
def counted (op : Operation) (result : String) : Note :=
  .count .settlementCalls [("operation", op.name), ("result", result)]

/-- The note on a broken call. -/
def broken (op : Operation) (e : SchedulerError) : Note :=
  .warning ("settlement.call_failed operation=" ++ op.name ++ " code=" ++ e.code.number
    ++ " err=" ++ e.message ++ " details=" ++ (Json.object e.details).shown)

/-- The answer to an operation, and the notes on the call. -/
def conclude (op : Operation) (came : Except Fault Received) : Except Fault Answer × List Note :=
  match reception op came with
  | .ok ms =>
    match verdict op ms with
    | .ok result => (payload op result, [timing op, counted op "ok"])
    | .error reason => (.ok (.error reason), [timing op, counted op "error"])
  | .error f =>
    match breaking? f with
    | some e => (.ok (.error e.message), [broken op e, counted op "transport_error", timing op])
    | none => (.error f, [timing op])

/-- The answer that comes of an exchange that is under way. -/
def settle {δ : Type} (lib : Library) (op : Operation) (request : Request) (exchange : Pending δ Response) :
    Pending δ Answer :=
  let (outcome, notes) := conclude op (exchange.outcome.bind (lib.receive request))
  { latency := exchange.latency, outcome, notes, abandoned := [timing op] }

end Wire

end Settler.Settlement
