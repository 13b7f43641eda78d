import InferenceRouting.Cluster.Tracker

/-!
# Choosing a node

The candidates for a model are the online nodes that have it: those whose latency is known before
those where it is not, the lower latency first, and then by id.  Ids are unique, so the order is
strict.
-/

namespace InferenceRouting.Cluster

/-- Whether one node comes before another, or is it. -/
def Node.atMost (a b : Node) : Bool :=
  match a.latencyMs, b.latencyMs with
  | some x, some y => decide (x < y) || (x == y && decide (a.id ≤ b.id))
  | some _, none => true
  | none, some _ => false
  | none, none => decide (a.id ≤ b.id)

namespace Tracker

/-- The online nodes that have a model, the best first. -/
def candidates (t : Tracker) (model : String) : List Node :=
  (t.nodes.filter fun n => n.isOnline && n.serves model).mergeSort Node.atMost

/-- The best node for a model. -/
def select (t : Tracker) (model : String) : Except RoutingError Node :=
  match t.candidates model with
  | n :: _ => .ok n
  | [] => .error (.noCapacity model)

end Tracker

end InferenceRouting.Cluster
