import Settler.Settlement.Collection

/-!
The operations of the settlement service, and its answers.
-/

namespace Settler.Settlement

/-- What the service can be asked to do. -/
inductive Operation where
  /-- Pay one epoch's debt. -/
  | payDebt (epoch : Int)
  | initializeDistribution
  /-- Calculate an epoch's distribution; the last calculation is announced in the channel. -/
  | calculateDistribution (epoch : Int) (announce : Bool)
  | finalizeDistribution (epoch : Int)
  | currentEpoch
  /-- Collect the debt of every completed epoch. -/
  | collectAllDebt
  deriving DecidableEq, Repr

namespace Operation

/-- The operation's name. -/
def name : Operation → String
  | .payDebt _ => "pay_debt"
  | .initializeDistribution => "initialize_distribution"
  | .calculateDistribution _ _ => "calculate_distribution"
  | .finalizeDistribution _ => "finalize_distribution"
  | .currentEpoch => "current_epoch"
  | .collectAllDebt => "collect_all_debt"

/-- The operation's parameters by name. -/
def params : Operation → Json.Members
  | .payDebt epoch => [("epoch", .int epoch)]
  | .calculateDistribution epoch announce => [("epoch", .int epoch), ("post_to_channel", .bool announce)]
  | .finalizeDistribution epoch => [("epoch", .int epoch)]
  | _ => []

end Operation

/-- What the service gives when it has done as asked. -/
inductive Payload where
  /-- For a payment. -/
  | batch (c : Collection)
  /-- For the current epoch. -/
  | epoch (n : Int)
  /-- For an initialization. -/
  | message (value : Json)
  /-- For everything else. -/
  | done
  deriving Repr

/-- The service's answer: what it gives, or the reason of its refusal. -/
abbrev Answer := Except Str Payload

end Settler.Settlement
