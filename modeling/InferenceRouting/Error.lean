import InferenceRouting.Clock
import InferenceRouting.Text.Span
import InferenceRouting.Json.Value

/-!
# Errors of the routing layer

An error is its cause.  Its message is computed when it is shown, since an error that carries a
retry instant tells the time that is left.

`countsAsEndpointFailure` separates the errors that say something about an endpoint from those
raised before a call to it was attempted; only the former may ever be held against an endpoint.
-/

namespace InferenceRouting

/-- Why an operation failed. -/
inductive RoutingError where
  /-- The endpoint is isolated by its circuit breaker until the instant given. -/
  | circuitOpen (name : String) (retryAt : Nat)
  /-- No pooled connection became available in time; the wait is in nanoseconds. -/
  | acquisitionTimeout (baseUrl : String) (waitedNanos : Nat)
  /-- The pool has been shut down. -/
  | poolClosed
  /-- Every credential slot is cooling down; the first is usable again at the instant given. -/
  | allCredentialsCooling (retryAt : Nat)
  /-- No online node serves the model. -/
  | noCapacity (model : String)
  /-- The call itself failed, with the status if there was an answer. -/
  | callFailed (status : Option Nat) (message : String)
  | configuration (message : String)
  | invalidInput (message : String)
  | io (message : String)
  /-- A text was not valid JSON, or not of the expected form. -/
  | json
  | internal (message : String)
  deriving DecidableEq, Repr

namespace RoutingError

/-- The text of an error shown at time `now` of a clock with so many ticks in a second. -/
def messageOn (perSecond now : Nat) : RoutingError → String
  | .circuitOpen name retryAt =>
    s!"Circuit open for {name}, retry in {Decimal.text (Clock.millis perSecond (retryAt - now))}ms"
  | .acquisitionTimeout baseUrl waited =>
    s!"Timed out after {Span.text waited} waiting for a connection to {baseUrl}"
  | .poolClosed => "Connection pool is shut down"
  | .allCredentialsCooling retryAt =>
    let left := Clock.millis perSecond (retryAt - now)
    s!"All credentials are cooling down, retry in {Decimal.text left}ms"
  | .noCapacity model => "No online node serves model '" ++ model ++ "'"
  | .callFailed none message => s!"Upstream call failed: {message}"
  | .callFailed (some status) message =>
    s!"Upstream call failed ({Decimal.text status}): {message}"
  | .configuration message => s!"Configuration error: {message}"
  | .invalidInput message => s!"Invalid input: {message}"
  | .io message => s!"IO error: {message}"
  | .json => "JSON error"
  | .internal message => s!"Internal error: {message}"

/-- The text of an error shown at time `now`. -/
def message (now : Nat) (e : RoutingError) : String :=
  e.messageOn Clock.ticksPerSecond now

/-- Whether the error says something about the health of the endpoint that was called. -/
def countsAsEndpointFailure : RoutingError → Bool
  | .circuitOpen .. | .acquisitionTimeout .. | .poolClosed | .allCredentialsCooling ..
  | .noCapacity .. => false
  | _ => true

/-- The instant from which a retry makes sense, if the error carries one. -/
def retryAt? : RoutingError → Option Nat
  | .circuitOpen _ t | .allCredentialsCooling t => some t
  | _ => none

/-- The status of the answer to a failed call, if there was an answer. -/
def callStatus? : RoutingError → Option Nat
  | .callFailed status _ => status
  | _ => none

/-- The status of the HTTP reply that reports the error. -/
def httpStatus : RoutingError → Nat
  | .circuitOpen .. | .acquisitionTimeout .. | .poolClosed | .allCredentialsCooling ..
  | .noCapacity .. => 503
  | .callFailed .. => 502
  | .invalidInput .. => 400
  | _ => 500

/-- The whole seconds until the retry instant, rounded up so that nobody retries early. -/
def retryAfterSeconds? (perSecond now : Nat) (e : RoutingError) : Option Nat :=
  e.retryAt?.map fun t => Clock.secondsUp perSecond (t - now)

/-- The error with the circumstances in front of its text. -/
def withContext (context source : String) : RoutingError :=
  .internal s!"{context}: {source}"

/-- The failure of an operation that did not end within its time, given in milliseconds. -/
def timedOut (context : String) (limit : Nat) : RoutingError :=
  .callFailed none s!"{context}: operation timed out after {Span.ofMillis limit}"

end RoutingError

/-- An HTTP reply. -/
structure HttpReply where
  status : Nat
  retryAfter : Option Nat
  contentType : Option String
  body : Json
  deriving Repr

/-- The reply that reports an error at time `now` of a clock with so many ticks in a second. -/
def RoutingError.replyOn (perSecond now : Nat) (e : RoutingError) : HttpReply where
  status := e.httpStatus
  retryAfter := e.retryAfterSeconds? perSecond now
  contentType := some "application/json"
  body := .ofMembers [
    ("error", .str (e.messageOn perSecond now)),
    ("retry_after_secs", .ofOption .ofNat (e.retryAfterSeconds? perSecond now))]

/-- The reply that reports an error at time `now`. -/
def RoutingError.reply (now : Nat) (e : RoutingError) : HttpReply :=
  e.replyOn Clock.ticksPerSecond now

/-- Runs an operation that ends `delay` milliseconds from now (never, if there is none) under a
time limit.  Gives the result and the time it took; an operation that ends just at the limit still
counts as ended. -/
def withTimeLimit {α : Type} (limit : Nat) (delay : Option Nat) (context : String)
    (outcome : Except RoutingError α) : Except RoutingError α × Nat :=
  match delay with
  | some d => if d ≤ limit then (outcome, d) else (.error (.timedOut context limit), limit)
  | none => (.error (.timedOut context limit), limit)

end InferenceRouting
