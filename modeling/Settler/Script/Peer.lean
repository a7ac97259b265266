import Settler.Worker.Services
import Settler.Json.Writer

/-!
Scripted far sides: outcomes laid down in advance, for rehearsals.

A queue holds the outcomes for one name, and the n-th question of that name gets the n-th of them;
past its end a default answers.
-/

namespace Settler.Script

open Settler.Settlement Settler.Http

/-- An outcome, and the delay before it. -/
structure Entry (δ α : Type) where
  delay : Option δ := none
  outcome : Except Fault α

/-- The entry as an outcome that is to come. -/
def Entry.pending {δ α : Type} (e : Entry δ α) : Pending δ α where
  latency := match e.delay with
    | some d => .after d
    | none => .immediate
  outcome := e.outcome

/-- Queues of outcomes by name. -/
abbrev Queues (δ α : Type) := List (String × List (Entry δ α))

/-- What the n-th question of a name gets. -/
def Queues.outcome {δ α : Type} (q : Queues δ α) (name : String) (n : Nat) (otherwise : α) :
    Pending δ α :=
  match (q.lookup name).bind (·[n]?) with
  | some e => e.pending
  | none => .now (.ok otherwise)

/-- What the settlement service says of an epoch past the last one. -/
def noRecord : String := "Record account not found at address X"

/-- The current epoch, unless a script says otherwise. -/
def usualEpoch : Int := 100

/-! ### Far sides behind HTTP -/

/-- The bytes of a text. -/
def bytes (s : String) : List UInt8 := s.toUTF8.toList

/-- A successful response with a JSON body. -/
def jsonResponse (members : Json.Members) : Response :=
  { status := 200, body := bytes (Json.object members).write }

/-- What a far side gives to a request for an operation past the end of its queue. -/
def usualResponse (operation : String) : Response :=
  match operation with
  | "pay_debt" => jsonResponse [("ok", .bool false), ("error", .text noRecord)]
  | "current_epoch" => jsonResponse [("ok", .bool true), ("result", .int usualEpoch)]
  | _ => jsonResponse [("ok", .bool true), ("result", .null)]

/-- A far side with a queue for each last step of a path. -/
def peer {δ : Type} (q : Queues δ Response) (earlier : List Request) (r : Request) :
    Pending δ Response :=
  let name := r.url.lastStep
  q.outcome name (earlier.countP fun e => e.url.lastStep == name) (usualResponse name)

/-! ### A settlement service and a recorder -/

/-- What the service gives for an operation past the end of its queue. -/
def usualAnswer : Operation → Answer
  | .payDebt _ => .error noRecord
  | .currentEpoch => .ok (.epoch usualEpoch)
  | .initializeDistribution => .ok (.message (.text "initialized distribution"))
  | _ => .ok .done

/-- The operation that went out, if one did. -/
def operation? : Outbound → Option Operation
  | .asked op => some op
  | .posted _ => none

/-- A settlement service with a queue for each operation. -/
def settle {δ : Type} (q : Queues δ Answer) (earlier : List Outbound) (op : Operation) :
    Pending δ Answer :=
  let asked := earlier.filterMap operation?
  q.outcome op.name (asked.countP fun e => e.name == op.name) (usualAnswer op)

/-- A place to post totals that gives every post the same outcome. -/
def post {δ : Type} (outcome : Except Fault Unit) (_earlier : List Outbound) (_s : Summary) :
    Pending δ Unit :=
  .now outcome

end Settler.Script
