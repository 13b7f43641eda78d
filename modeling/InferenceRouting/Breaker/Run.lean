import InferenceRouting.Breaker.Basic

/-!
# Calls through a breaker

A call is asked for, and if it is admitted it is under way until it ends or its caller goes away.
Meanwhile others are asked for and end, the circuit is opened and closed by hand, timers ring, and
somebody looks at the breaker.  A `BreakerRun` is a breaker with the calls under way through it; a
call goes by its number in the order in which calls were asked for.

`BreakerRun.step` is the effect of one event at a given time.  Events may come in any order; one
that does not fit what is under way changes nothing.  A timer rings at its time or later, even if it
was cancelled, since a cancellation may come too late for it.  In `BreakerRun.stepOnTime` the timers
that were not cancelled ring punctually.
-/

namespace InferenceRouting

/-- A breaker and the calls under way. -/
structure BreakerRun where
  breaker : Breaker
  calls : List (Nat × Admission) := []
  /-- How many calls have been asked for; the next one has this number. -/
  asked : Nat := 0
  /-- The timers that were ever started. -/
  started : List ResetTimer := []

/-- Something that happens to a breaker.  Calls have results of type `α`. -/
inductive BreakerEvent (α : Type) where
  /-- The next call is asked for. -/
  | start
  | finish (call : Nat) (result : Except RoutingError α)
  /-- The caller goes away while the call is under way. -/
  | abandon (call : Nat)
  | trip
  | reset
  /-- Looks at the state, at whether it lets calls through, at the failures in the window, and at
  the report. -/
  | state
  | available
  | failureCount
  | report
  | ring (timer : ResetTimer)
  /-- No timer is started any more. -/
  | stopTimers

/-- What comes of an event. -/
inductive BreakerOutcome (α : Type) where
  | nothing
  /-- The call is made. -/
  | admitted
  /-- The call is not made. -/
  | rejected (error : RoutingError)
  | ended (result : Except RoutingError α)
  | state (s : CircuitState)
  | available (b : Bool)
  | failureCount (n : Nat)
  | report (r : BreakerReport)

namespace BreakerEvent

variable {α : Type}

/-- Whether an event is a look at the breaker. -/
def isLook : BreakerEvent α → Bool
  | .state | .available | .failureCount | .report => true
  | _ => false

/-- Whether an event is one of the timers and not of those who use the breaker. -/
def isTimers : BreakerEvent α → Bool
  | .ring _ | .stopTimers => true
  | _ => false

end BreakerEvent

namespace BreakerRun

variable {α : Type}

/-- A new breaker, through which no call has been asked for. -/
def new (name : String) (config : BreakerConfig) (timersEnabled : Bool) : BreakerRun :=
  { breaker := .new name config timersEnabled }

/-- Puts a breaker in the place of the one before, and notes the timers it has started. -/
def become (r : BreakerRun) (b : Breaker) : BreakerRun :=
  { r with breaker := b, started := r.started ++ b.timers }

/-- The admission of a call under way. -/
def admission? (r : BreakerRun) (call : Nat) : Option Admission :=
  r.calls.lookup call

/-- Forgets a call. -/
def endCall (r : BreakerRun) (call : Nat) : BreakerRun :=
  { r with calls := r.calls.filter (·.1 ≠ call) }

/-- The next call is asked for. -/
def start (r : BreakerRun) (now : Nat) : BreakerRun × BreakerOutcome α :=
  let next := { r with asked := r.asked + 1 }
  match r.breaker.enter now with
  | (b, .ok a) => ({ next.become b with calls := r.calls ++ [(r.asked, a)] }, .admitted)
  | (b, .error e) => (next.become b, .rejected e)

/-- A call ends with its result, which goes to its caller as it is. -/
def finish (r : BreakerRun) (now : Nat) (call : Nat) (result : Except RoutingError α) :
    BreakerRun × BreakerOutcome α :=
  match r.admission? call with
  | some a => ((r.endCall call).become (r.breaker.settle now a (.ofResult result)), .ended result)
  | none => (r, .nothing)

/-- The caller of a call goes away. -/
def abandon (r : BreakerRun) (call : Nat) : BreakerRun :=
  match r.admission? call with
  | some a => (r.endCall call).become (r.breaker.abandon a)
  | none => r

/-- A timer rings, unless its time has not come. -/
def ring (r : BreakerRun) (now : Nat) (timer : ResetTimer) : BreakerRun :=
  if timer ∈ r.started ∧ timer.due ≤ now then r.become (r.breaker.fireTimer timer.generation)
  else r

/-- The effect of an event at time `now`. -/
def step (r : BreakerRun) (now : Nat) : BreakerEvent α → BreakerRun × BreakerOutcome α
  | .start => r.start now
  | .finish call result => r.finish now call result
  | .abandon call => (r.abandon call, .nothing)
  | .trip => (r.become (r.breaker.trip now), .nothing)
  | .reset => (r.become r.breaker.reset, .nothing)
  | .state => (r.become (r.breaker.read now).1, .state (r.breaker.read now).2)
  | .available => (r.become (r.breaker.read now).1, .available ((r.breaker.read now).2 != .open))
  | .failureCount =>
    (r.become (r.breaker.failureCount now).1, .failureCount (r.breaker.failureCount now).2)
  | .report => (r.become (r.breaker.report now).1, .report (r.breaker.report now).2)
  | .ring timer => (r.ring now timer, .nothing)
  | .stopTimers => (r.become r.breaker.disableTimers, .nothing)

/-- The state after some events, each with its time. -/
def run (r : BreakerRun) (events : List (Nat × BreakerEvent α)) : BreakerRun :=
  events.foldl (fun r e => (r.step e.1 e.2).1) r

/-- The timers that are due by `now` ring. -/
def onTime (r : BreakerRun) (now : Nat) : BreakerRun :=
  r.become (r.breaker.fireDue now)

/-- The effect of an event when the timers that are due by then have rung. -/
def stepOnTime (r : BreakerRun) (now : Nat) (e : BreakerEvent α) :
    BreakerRun × BreakerOutcome α :=
  (r.onTime now).step now e

/-- The state after some events, while timers ring on time. -/
def runOnTime (r : BreakerRun) (events : List (Nat × BreakerEvent α)) : BreakerRun :=
  events.foldl (fun r e => (r.stepOnTime e.1 e.2).1) r

end BreakerRun

end InferenceRouting
