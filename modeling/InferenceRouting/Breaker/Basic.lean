import InferenceRouting.Error
import InferenceRouting.Metrics
import InferenceRouting.Setting.Basic

/-!
# Circuit breakers

A breaker guards one endpoint.  While it is closed it lets every call through and counts the
failures of the endpoint inside a sliding window; at the threshold it opens.  While it is open it
rejects every call, and after the cool-down it turns half-open: it admits a bounded number of probe
calls, closes again after as many successful probes, and reopens at any failure.

A call is admitted (`enter`), and later settled with its verdict (`settle`) or abandoned
(`abandon`); any number of calls may be under way.  A probe is tagged with the generation in which
it was admitted, and every transition into open or half-open begins a new generation, so a call from
an earlier period neither holds nor frees a probe's place of the current one.

The cool-down ends by a timer, or lazily at the first look at the breaker after it.  `timers` holds
the timers that are neither finished nor cancelled, `handle` names the one the breaker would cancel.
-/

namespace InferenceRouting

/-- The state of a circuit. -/
inductive CircuitState where
  | closed
  | open
  | halfOpen
  deriving DecidableEq, Repr

namespace CircuitState

/-- The name of a state. -/
def text : CircuitState → String
  | .closed => "CLOSED"
  | .open => "OPEN"
  | .halfOpen => "HALF_OPEN"

/-- The number by which a state is published. -/
def level : CircuitState → Nat
  | .closed => 0
  | .halfOpen => 1
  | .open => 2

end CircuitState

/-- How a breaker is tuned; times are in milliseconds. -/
structure BreakerConfig where
  failureThreshold : Nat := 5
  resetTimeout : Nat := 30000
  halfOpenMaxAttempts : Nat := 2
  monitorWindow : Nat := 60000
  deriving DecidableEq, Repr

namespace BreakerConfig

/-- Reads a configuration, in which every field may be missing. -/
def ofSetting? (s : Setting) : Option BreakerConfig := do
  let fields ← s.record? ["failure_threshold", "reset_timeout", "half_open_max_attempts",
    "monitor_window"]
  let d : BreakerConfig := {}
  some {
    failureThreshold := ← fields.optional "failure_threshold" (Setting.asNat? Setting.maxNat32)
      d.failureThreshold
    resetTimeout := ← fields.optional "reset_timeout" Setting.asMillis? d.resetTimeout
    halfOpenMaxAttempts := ← fields.optional "half_open_max_attempts"
      (Setting.asNat? Setting.maxNat32) d.halfOpenMaxAttempts
    monitorWindow := ← fields.optional "monitor_window" Setting.asMillis? d.monitorWindow }

/-- A configuration as it is written: times in whole seconds. -/
def toSetting (c : BreakerConfig) : Setting :=
  .table [
    ("failure_threshold", .ofNat c.failureThreshold),
    ("reset_timeout", .ofMillis c.resetTimeout),
    ("half_open_max_attempts", .ofNat c.halfOpenMaxAttempts),
    ("monitor_window", .ofMillis c.monitorWindow)]

end BreakerConfig

/-- A timer that ends the cool-down begun in a generation. -/
structure ResetTimer where
  generation : Nat
  due : Nat
  deriving DecidableEq, Repr

/-- The published counters of a breaker and the state it last published. -/
structure BreakerMeters where
  opens : Nat := 0
  closes : Nat := 0
  rejected : Nat := 0
  shown : Option CircuitState := none
  deriving DecidableEq, Repr

/-- A circuit breaker. -/
structure Breaker where
  name : String
  config : BreakerConfig
  /-- Whether timers can be started. -/
  timersEnabled : Bool
  state : CircuitState := .closed
  /-- The times of the failures in the window, oldest first. -/
  failures : List Nat := []
  halfOpenSuccesses : Nat := 0
  halfOpenInFlight : Nat := 0
  openedAt : Option Nat := none
  generation : Nat := 0
  totalRequests : Nat := 0
  totalFailures : Nat := 0
  rejectedRequests : Nat := 0
  lastSuccess : Option Nat := none
  lastFailure : Option Nat := none
  /-- The generation of the timer that the breaker holds. -/
  handle : Option Nat := none
  timers : List ResetTimer := []
  meters : BreakerMeters := {}
  deriving DecidableEq, Repr

/-- The permission for one call: the generation in which it is a probe, if it is one. -/
structure Admission where
  probe : Option Nat
  deriving DecidableEq, Repr

/-- What the end of a call says about the endpoint. -/
inductive Verdict where
  | success
  | failure
  | neutral
  deriving DecidableEq, Repr

/-- The verdict of a call's result: an error that does not count against the endpoint is neutral. -/
def Verdict.ofResult {α : Type} : Except RoutingError α → Verdict
  | .ok _ => .success
  | .error e => if e.countsAsEndpointFailure then .failure else .neutral

/-- A breaker at one instant, for the eyes of an operator. -/
structure BreakerReport where
  name : String
  state : CircuitState
  failureCount : Nat
  halfOpenSuccesses : Nat
  lastSuccess : Option Nat
  lastFailure : Option Nat
  totalRequests : Nat
  totalFailures : Nat
  rejectedRequests : Nat
  retryAfterMs : Option Nat
  deriving DecidableEq, Repr

namespace Breaker

/-- A closed breaker without a history. -/
def new (name : String) (config : BreakerConfig) (timersEnabled : Bool) : Breaker :=
  { name, config, timersEnabled }

/-- Forgets the failures before the window that ends at `now`.  A failure exactly at the beginning
of the window is still in it. -/
def prune (b : Breaker) (now : Nat) : Breaker :=
  { b with failures := b.failures.dropWhile fun t => b.config.monitorWindow < now - t }

/-- Cancels the timer that the breaker holds. -/
def cancelTimer (b : Breaker) : Breaker :=
  match b.handle with
  | some g => { b with handle := none, timers := b.timers.filter (·.generation ≠ g) }
  | none => b

/-- Starts the timer of the current generation. -/
def startTimer (b : Breaker) (now : Nat) : Breaker :=
  let timers := if b.timersEnabled then b.timers ++ [⟨b.generation, now + b.config.resetTimeout⟩]
    else b.timers
  { b with handle := some b.generation, timers := timers }

/-- Publishes the current state. -/
def publish (b : Breaker) : Breaker :=
  { b with meters := { b.meters with shown := some b.state } }

/-- Opens the circuit: the cool-down begins at `now`. -/
def toOpen (b : Breaker) (now : Nat) : Breaker :=
  let b := { b with
    state := .open
    openedAt := some now
    halfOpenSuccesses := 0
    halfOpenInFlight := 0
    generation := b.generation + 1 }
  let b := (b.cancelTimer).startTimer now
  { b with meters := { b.meters with opens := b.meters.opens + 1 } }.publish

/-- Begins a period of probing. -/
def toHalfOpen (b : Breaker) : Breaker :=
  { b with
    state := .halfOpen
    halfOpenSuccesses := 0
    halfOpenInFlight := 0
    generation := b.generation + 1 }.cancelTimer.publish

/-- Closes the circuit after enough successful probes. -/
def toClosed (b : Breaker) : Breaker :=
  let b := { b with
    state := .closed
    failures := []
    halfOpenSuccesses := 0
    halfOpenInFlight := 0
    openedAt := none }.cancelTimer
  { b with meters := { b.meters with closes := b.meters.closes + 1 } }.publish

/-- Applies a cool-down that is over. -/
def refresh (b : Breaker) (now : Nat) : Breaker :=
  match b.state, b.openedAt with
  | .open, some opened => if opened + b.config.resetTimeout ≤ now then b.toHalfOpen else b
  | _, _ => b

/-- Counts a rejected call and tells when to retry. -/
def reject (b : Breaker) (retryAt : Nat) : Breaker × Except RoutingError Admission :=
  ({ b with
    rejectedRequests := b.rejectedRequests + 1
    meters := { b.meters with rejected := b.meters.rejected + 1 } },
   .error (.circuitOpen b.name retryAt))

/-- Asks for permission for a call. -/
def enter (b : Breaker) (now : Nat) : Breaker × Except RoutingError Admission :=
  let b := { b with totalRequests := b.totalRequests + 1 }.refresh now
  match b.state with
  | .closed => (b, .ok ⟨none⟩)
  | .open => b.reject (b.openedAt.getD now + b.config.resetTimeout)
  | .halfOpen =>
    if b.config.halfOpenMaxAttempts ≤ b.halfOpenInFlight then b.reject now
    else ({ b with halfOpenInFlight := b.halfOpenInFlight + 1 }, .ok ⟨some b.generation⟩)

/-- Frees the place of a probe of the current period. -/
def releaseProbe (b : Breaker) (a : Admission) : Breaker :=
  match a.probe with
  | some g =>
    if b.state = .halfOpen ∧ b.generation = g then
      { b with halfOpenInFlight := b.halfOpenInFlight - 1 }
    else b
  | none => b

/-- A success.  While closed it clears the window; of a probe of the current period it counts
towards closing. -/
def recordSuccess (b : Breaker) (now : Nat) (a : Admission) : Breaker :=
  let b := { b with lastSuccess := some now }
  match b.state with
  | .closed => { b with failures := [] }
  | .halfOpen =>
    if a.probe = some b.generation then
      let b := { b with halfOpenSuccesses := b.halfOpenSuccesses + 1 }
      if b.config.halfOpenMaxAttempts ≤ b.halfOpenSuccesses then b.toClosed else b
    else b
  | .open => b

/-- A failure of the endpoint.  It opens a closed circuit at the threshold and a half-open one at
once. -/
def recordFailure (b : Breaker) (now : Nat) : Breaker :=
  let b := { b with
    totalFailures := b.totalFailures + 1
    lastFailure := some now
    failures := b.failures ++ [now] }.prune now
  match b.state with
  | .closed => if b.config.failureThreshold ≤ b.failures.length then b.toOpen now else b
  | .halfOpen => b.toOpen now
  | .open => b

/-- Ends an admitted call with its verdict. -/
def settle (b : Breaker) (now : Nat) (a : Admission) (v : Verdict) : Breaker :=
  let b := b.releaseProbe a
  match v with
  | .success => b.recordSuccess now a
  | .failure => b.recordFailure now
  | .neutral => b

/-- Ends an admitted call whose caller has gone. -/
def abandon (b : Breaker) (a : Admission) : Breaker :=
  b.releaseProbe a

/-- Closes the circuit by hand and forgets its history. -/
def reset (b : Breaker) : Breaker :=
  let b := b.cancelTimer
  { b with
    state := .closed
    failures := []
    halfOpenSuccesses := 0
    halfOpenInFlight := 0
    openedAt := none
    generation := b.generation + 1
    totalRequests := 0
    totalFailures := 0
    rejectedRequests := 0
    lastSuccess := none
    lastFailure := none }.publish

/-- Opens the circuit by hand and begins the cool-down anew. -/
def trip (b : Breaker) (now : Nat) : Breaker :=
  b.toOpen now

/-- The timer of a generation rings.  It ends the cool-down it was started for and no other. -/
def fireTimer (b : Breaker) (generation : Nat) : Breaker :=
  let b := { b with timers := b.timers.filter (·.generation ≠ generation) }
  if b.state = .open ∧ b.generation = generation then { b with handle := none }.toHalfOpen else b

/-- The timers that ring up to `now` ring, each at its own time. -/
def fireDue (b : Breaker) (now : Nat) : Breaker :=
  (b.timers.filter (·.due ≤ now)).foldl (fun b t => b.fireTimer t.generation) b

/-- Ends all timers, and no more are started. -/
def disableTimers (b : Breaker) : Breaker :=
  { b with timersEnabled := false, timers := [] }

/-- The state at `now`. -/
def read (b : Breaker) (now : Nat) : Breaker × CircuitState :=
  let b := b.refresh now
  (b, b.state)

/-- The number of failures in the window. -/
def failureCount (b : Breaker) (now : Nat) : Breaker × Nat :=
  let b := b.prune now
  (b, b.failures.length)

/-- The state, the counters and the time left until an open circuit admits probes. -/
def report (b : Breaker) (now : Nat) : Breaker × BreakerReport :=
  let b := (b.refresh now).prune now
  (b, {
    name := b.name
    state := b.state
    failureCount := b.failures.length
    halfOpenSuccesses := b.halfOpenSuccesses
    lastSuccess := b.lastSuccess
    lastFailure := b.lastFailure
    totalRequests := b.totalRequests
    totalFailures := b.totalFailures
    rejectedRequests := b.rejectedRequests
    retryAfterMs := match b.state, b.openedAt with
      | .open, some opened => some (Clock.published (opened + b.config.resetTimeout - now))
      | _, _ => none })

end Breaker

namespace BreakerReport

/-- The share of failures among `requests`, in percent; zero when there were none. -/
def percentage (failures requests : Nat) : Binary64 :=
  if requests = 0 then Binary64.zero false
  else
    let rate := do
      let quotient ← (← Binary64.ofNat? failures).div (← Binary64.ofNat? requests)
      quotient.mul (← Binary64.ofNat? 100)
    rate.getD (Binary64.zero false)

/-- The share of failures over the lifetime of a breaker, in percent. -/
def failureRate (r : BreakerReport) : Binary64 :=
  percentage r.totalFailures r.totalRequests

/-- The members of a report as it is published. -/
def members (r : BreakerReport) : List (String × Json) :=
  let instant (t : Option Nat) : Json := .ofOption (fun t => .str (Clock.wallText t)) t
  [("name", .str r.name),
   ("state", .str r.state.text),
   ("failure_count", .ofNat r.failureCount),
   ("half_open_successes", .ofNat r.halfOpenSuccesses),
   ("last_success", instant r.lastSuccess),
   ("last_failure", instant r.lastFailure),
   ("total_requests", .ofNat r.totalRequests),
   ("total_failures", .ofNat r.totalFailures),
   ("rejected_requests", .ofNat r.rejectedRequests),
   ("retry_after_ms", .ofOption .ofNat r.retryAfterMs)]

/-- A report as it is published. -/
def toJson (r : BreakerReport) : Json :=
  .ofMembers r.members

end BreakerReport

namespace BreakerMeters

/-- The samples of the breaker with a name. -/
def samples (m : BreakerMeters) (name : String) : List Metrics.Sample :=
  let label := some ("breaker", name)
  Metrics.counter "circuit_breaker_opens_total" label m.opens
    ++ Metrics.counter "circuit_breaker_closes_total" label m.closes
    ++ Metrics.counter "circuit_breaker_rejected_requests_total" label m.rejected
    ++ Metrics.gauge "circuit_breaker_state" label (m.shown.map CircuitState.level)

end BreakerMeters

end InferenceRouting
