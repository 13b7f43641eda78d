import InferenceRouting.Credential.Secret
import InferenceRouting.Json.Tree
import InferenceRouting.Http.Address
import InferenceRouting.Http.Endpoint

/-!
# Calls of an endpoint

A call is a request with the time after which nobody waits for its answer any more: a request is
overdue when more than its time has passed, a liveness probe as soon as its own has.  Making a call
can fail before anything is sent; then no request exists.  What came back is read by the kind of the
call: a chat call is answered by JSON under a status of success, a probe by such a status alone.

`Fault` names the ways in which a call ends without an answer.
-/

namespace InferenceRouting.Http

/-- The method of a request. -/
inductive Method where
  | get
  | post
  deriving DecidableEq, Repr

/-- The name of a method. -/
def Method.text : Method → String
  | .get => "GET"
  | .post => "POST"

/-- A request as it arrives at the other side. -/
structure Request where
  method : Method
  target : Target
  authorization : Option String
  body : Option Json
  deriving Repr

/-- A request as it is shown. -/
def Request.toJson (r : Request) : Json :=
  .ofMembers [
    ("method", .str r.method.text),
    ("url", .str r.target.url),
    ("authorization", .ofOption .str r.authorization),
    ("body", .ofOption id r.body)]

/-- An answer to a request. -/
structure Response where
  status : Nat
  body : String
  deriving DecidableEq, Repr

/-- Whether a status means success. -/
def Response.isSuccess (r : Response) : Bool :=
  200 ≤ r.status && r.status < 300

/-- Why a call got no answer that can be used. -/
inductive Fault where
  /-- No request can be sent to the address. -/
  | badAddress
  /-- The connection was closed before an answer. -/
  | broken
  /-- The answer did not come in time. -/
  | late
  /-- The answer is not JSON. -/
  | unreadable
  deriving DecidableEq, Repr

namespace Fault

/-- What a fault is called. -/
def text : Fault → String
  | .badAddress => "builder error"
  | .broken => "error sending request"
  | .late => "error sending request"
  | .unreadable => "error decoding response body"

/-- A fault as the failure of a call. -/
def error (f : Fault) : RoutingError :=
  .callFailed none f.text

end Fault

/-- A request under way: the milliseconds after which it is overdue, and how it fails then. -/
structure Call where
  request : Request
  limit : Nat
  overdue : RoutingError

/-- The longest excerpt of an answer that is kept in an error. -/
def excerptLength : Nat := 512

/-- The beginning of a text, with dots if that is not all. -/
def excerpt (text : String) : String :=
  if text.toList.length ≤ excerptLength then text
  else String.ofList (text.toList.take excerptLength) ++ "..."

/-- The time a liveness probe may take, in milliseconds. -/
def probeTimeout : Nat := 5000

namespace Endpoint

/-- The value of the authorization header for a secret; there is none without a secret. -/
def authorization : Option Secret → Except RoutingError (Option String)
  | none => .ok none
  | some secret =>
    if Secret.isHeaderText secret.bearer then .ok (some secret.bearer)
    else .error (.invalidInput "credential is not a valid header value")

/-- A request, if one can be sent to the address. -/
def request (read : TargetReader) (method : Method) (address : String)
    (authorization : Option String) (body : Option Json) : Except RoutingError Request :=
  match read address with
  | none => .error Fault.badAddress.error
  | some target => .ok { method, target, authorization, body }

/-- The milliseconds after which a request is overdue: the first beyond its time. -/
def requestLimit (e : Endpoint) : Nat :=
  e.requestTimeout + 1

/-- Makes a chat call. -/
def chat (e : Endpoint) (secret : Option Secret) (body : Json)
    (read : TargetReader := Target.ofAddress?) : Except RoutingError Call :=
  match authorization secret with
  | .error fault => .error fault
  | .ok header =>
    match request read .post e.chatUrl header (some body) with
    | .error fault => .error fault
    | .ok request => .ok { request, limit := e.requestLimit, overdue := Fault.late.error }

/-- Reads the answer to a chat call. -/
def readChat (r : Response) : Except RoutingError Json :=
  if r.isSuccess then
    match Json.parse r.body.toList with
    | some value => .ok value
    | none => .error Fault.unreadable.error
  else .error (.callFailed (some r.status) (excerpt r.body))

/-- Makes a liveness probe.  Its own limit counts when it is shorter than that of a request. -/
def probe (e : Endpoint) (read : TargetReader := Target.ofAddress?) :
    Except RoutingError Call :=
  match request read .get e.livenessUrl none none with
  | .error fault => .error fault
  | .ok request =>
    if e.requestLimit ≤ probeTimeout then
      .ok { request, limit := e.requestLimit, overdue := Fault.late.error }
    else .ok { request, limit := probeTimeout, overdue := .timedOut "liveness probe" probeTimeout }

/-- Reads the answer to a liveness probe. -/
def readProbe (e : Endpoint) (r : Response) : Except RoutingError Unit :=
  if r.isSuccess then .ok ()
  else .error (.callFailed (some r.status) ("liveness probe to " ++ e.livenessUrl ++ " failed"))

end Endpoint

end InferenceRouting.Http
