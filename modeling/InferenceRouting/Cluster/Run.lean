import InferenceRouting.Cluster.Tracker

/-!
# What happens to a tracker

Messages come in, nodes are added and removed by hand, and now and then the tracker is swept.
`Tracker.step` is the effect of one event at a given time, with the changes it publishes.
-/

namespace InferenceRouting.Cluster

/-- Something that happens to a tracker. -/
inductive TrackerEvent where
  | message (m : Message)
  /-- A node is registered by its address. -/
  | add (host : String) (port : Nat) (name : Option String)
  /-- A node of the configuration is registered. -/
  | addStatic (n : StaticNode)
  | remove (id : String)
  | sweep

namespace Tracker

/-- The effect of an event at time `now`, and the changes that are published, in order. -/
def step (t : Tracker) (now : Nat) : TrackerEvent → Tracker × List MembershipEvent
  | .message m => t.handle now m
  | .add host port name => ((t.add now host port name []).1, [])
  | .addStatic n => ((t.addStatic now n).1, [])
  | .remove id => ((t.remove id).1, (t.remove id).2.1)
  | .sweep => ((t.sweep now).1, (t.sweep now).2.1)

/-- The tracker after a sequence of events, each with its time. -/
def run (t : Tracker) (events : List (Nat × TrackerEvent)) : Tracker :=
  events.foldl (fun t e => (t.step e.1 e.2).1) t

end Tracker

end InferenceRouting.Cluster
