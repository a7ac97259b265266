import Settler.Summary.Table
import Settler.Http.Status
import Settler.Http.Exchange
import Settler.Time.Pending

/-!
The chat webhook: sweep totals are posted there, once.

Delivery fails if no address is set, if the exchange fails, or if the status is not one of success;
such a failure is noted and goes no further.
-/

namespace Settler

open Settler.Http

/-- The webhook, by its address as it was set. -/
structure Webhook where
  setting : String
  deriving DecidableEq, Repr

namespace Webhook

/-- A failed delivery. -/
def undelivered (message : Str) (details : Json.Members) : Fault :=
  .scheduler (.make .delivery message details)

/-- The failure that a broken exchange is. -/
def brokenPost (kind : String) (message : Str) : Fault :=
  undelivered ("Slack webhook post failed: " ++ message) [("error", .text kind)]

/-- A failure on the way is a failed delivery; any other fault stays what it is. -/
def converted : Fault → Fault
  | .transport kind message => brokenPost kind message
  | f => f

/-- The webhook's address. -/
def address (lib : Library) (w : Webhook) : Except Fault Url :=
  let text := Text.trimmed w.setting
  if text = "" then .error (undelivered "SLACK_WEBHOOK_URL is not set" [])
  else (lib.address text).mapError converted

/-- The request that posts a message. -/
def request (lib : Library) (w : Webhook) (message : Json) : Except Fault Request :=
  (w.address lib).map fun url => .post url message

/-- Whether a message was delivered. -/
def delivery : Except Fault Received → Except Fault Unit
  | .ok r => if isSuccess r.status then .ok () else .error (brokenPost "HTTPStatusError" r.refusal)
  | .error f => .error (converted f)

/-- Whether a table was delivered; a failed delivery is noted, any other fault goes on. -/
def posted (header : String) : Except Fault Unit → Except Fault Bool × List Note
  | .ok () => (.ok true, [])
  | .error (.scheduler e) =>
    if e.family == .delivery then
      (.ok false, [.warning ("notify.slack_failed header=" ++ Text.quoted header ++ " err=" ++ e.message)])
    else (.error (.scheduler e), [])
  | .error f => (.error f, [])

/-- The note on delivered totals. -/
def deliveredNote (s : Summary) : Note :=
  .info ("notify.debt_summary_posted total_debt=" ++ toString s.totalDebt ++ " total_paid="
    ++ toString s.totalPaid ++ " insufficient_funds=" ++ toString s.insufficientFunds)

/-- Posting a table, given what an exchange gives. -/
def postTable {δ : Type} (lib : Library) (w : Webhook) (exchange : Request → Pending δ Response)
    (t : Table) : Pending δ Bool :=
  match w.request lib t.message with
  | .error f =>
    let (outcome, notes) := posted t.header (.error f)
    { outcome, notes }
  | .ok request =>
    let came := exchange request
    let (outcome, notes) := posted t.header (delivery (came.outcome.bind (lib.receive request)))
    { latency := came.latency, outcome, notes }

/-- Posting the totals of a sweep, given what an exchange gives. -/
def postSummary {δ : Type} (lib : Library) (w : Webhook) (exchange : Request → Pending δ Response)
    (s : Summary) : Pending δ Unit :=
  let p := w.postTable lib exchange (.ofSummary s)
  match p.outcome with
  | .ok delivered =>
    { latency := p.latency, outcome := .ok ()
      notes := p.notes ++ (if delivered then [deliveredNote s] else []) }
  | .error f => { latency := p.latency, outcome := .error f, notes := p.notes }

end Webhook

end Settler
