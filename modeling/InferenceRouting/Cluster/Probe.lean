import InferenceRouting.Cluster.Tracker

/-!
# Probing static nodes

A node of the configuration that answers its liveness probe is taken to have sent a heartbeat with
the models configured for it, so that nodes which send no messages can be used too.
-/

namespace InferenceRouting.Cluster

/-- The heartbeat that stands for a successful probe. -/
def probeHeartbeat (now : Nat) (id : String) (models : List String) : Message where
  kind := .heartbeat
  nodeId := id
  payload := .obj [("models", .arr (models.map .str))]
  timestamp := Clock.wallMillis now

namespace Tracker

/-- Registers a static node, and hears from it if it is alive. -/
def probeOne (t : Tracker) (now : Nat) (alive : StaticNode → Bool) (n : StaticNode) :
    Tracker × List MembershipEvent :=
  let (t, id) := t.addStatic now n
  if alive n then t.handle now (probeHeartbeat now id n.models) else (t, [])

/-- One round over the static nodes.  Gives the events and how many nodes are alive. -/
def probeRound (t : Tracker) (now : Nat) (alive : StaticNode → Bool) (nodes : List StaticNode) :
    Tracker × List MembershipEvent × Nat :=
  let (t, events) := nodes.foldl (fun (t, events) n =>
    let (t, more) := t.probeOne now alive n
    (t, events ++ more)) (t, [])
  (t, events, nodes.countP alive)

end Tracker

end InferenceRouting.Cluster
