import Settler.Settlement.Wire
import Settler.Summary.Webhook

/-!
What workers depend on: the settlement service and the place where totals are posted.

A service answers by what it is asked and by what went out before, the newest first; so a run is a
function of its services. `Services.remote` has both behind HTTP.
-/

namespace Settler

open Settler.Settlement Settler.Http

/-- What a worker sends out. -/
inductive Outbound where
  | asked (op : Operation)
  | posted (s : Summary)
  deriving DecidableEq, Repr

/-- What workers depend on. -/
structure Services (δ : Type) where
  /-- What the settlement service answers. -/
  settle : List Outbound → Operation → Pending δ Answer
  /-- What comes of posting totals. -/
  post : List Outbound → Summary → Pending δ Unit

/-- The far sides behind HTTP, and the library that they are reached by. -/
structure Remote (δ : Type) where
  library : Library
  wire : Wire
  webhook : Webhook
  /-- What comes of a request after earlier ones: the response, or the fault that it meets on the way. -/
  exchange : List Request → Request → Pending δ Response

namespace Remote

variable {δ : Type}

/-- The request that goes out, if one does. -/
def request? (r : Remote δ) : Outbound → Option Request
  | .asked op => some (r.wire.request op)
  | .posted s => (r.webhook.request r.library (Table.ofSummary s).message).toOption

/-- The services that the far sides are. -/
def services (r : Remote δ) : Services δ where
  settle earlier op :=
    let request := r.wire.request op
    Wire.settle r.library op request (r.exchange (earlier.filterMap r.request?) request)
  post earlier s := r.webhook.postSummary r.library (r.exchange (earlier.filterMap r.request?)) s

end Remote

end Settler
