import InferenceRouting.Credential.Rotation
import InferenceRouting.Metrics

/-!
# What happens to a rotation

A rotation changes by four kinds of event.  `Rotation.apply` is the effect of one of them at a given
time, and `Rotation.run` that of a timed sequence.
-/

namespace InferenceRouting.Credential

/-- Something that happens to a rotation. -/
inductive RotationEvent where
  /-- The active slot succeeded. -/
  | success
  /-- The active slot failed. -/
  | failure (f : Failure)
  /-- The slot at a place was used apart from the active one. -/
  | outcome (index : Nat) (failed : Bool)
  /-- The slot at a place is to be the active one. -/
  | select (index : Nat)
  deriving DecidableEq, Repr

namespace Rotation

/-- The rotation after one event; an impossible selection changes nothing. -/
def apply (r : Rotation) (now : Nat) : RotationEvent → Rotation
  | .success => r.reportSuccess
  | .failure f => (r.reportFailure now f).1
  | .outcome i failed => r.recordOutcome now i failed
  | .select i => match r.select i with
    | .ok r => r
    | .error _ => r

/-- The rotation after a timed sequence of events. -/
def run (r : Rotation) (events : List (Nat × RotationEvent)) : Rotation :=
  events.foldl (fun r e => r.apply e.1 e.2) r

/-- What the rotation publishes. -/
def samples (r : Rotation) : List Metrics.Sample :=
  Metrics.counter "credential_rotations_total" (some ("reason", "auth_or_rate_limit"))
      r.meters.urgent
    ++ Metrics.counter "credential_rotations_total" (some ("reason", "max_failures"))
      r.meters.exceeded

end Rotation

end InferenceRouting.Credential
