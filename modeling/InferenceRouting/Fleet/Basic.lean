import InferenceRouting.Breaker.Registry
import InferenceRouting.Cluster.Selection
import InferenceRouting.Credential.History
import InferenceRouting.Fleet.Request
import InferenceRouting.Pool.Run
import InferenceRouting.Http.Call

/-!
# The fleet

A fleet is a tracker that knows the nodes, a registry with a breaker per node, a pool of
connections and a rotation of credentials.  A request goes through them all: the nodes that have its
model are tried in order; at each one the breaker must admit the call, then the pool must give a
connection, and then the call is made.

A refusal by the breaker or the pool only moves the request on to the next node, and the last refusal
is the request's own error if no node is left.  A call decides the request: its answer or its failure
is final, even if it could not be sent, so no request is ever sent twice.  The breaker of the node
learns the verdict, and the rotation learns of every request that was decided by a call.

A request that has to wait, for a connection or for its answer, is kept as a `Route`.  `Fleet.step`
is the effect of one event on one route at a given time; events on different routes may come in any
order.
-/

namespace InferenceRouting

open Credential (KeyModelPair Rotation Failure)
open Cluster (Tracker Node)
open Http (Call Endpoint HttpConfig Target TargetReader)

/-- What a request is sent with: the model, the body, and the secret with its place. -/
structure Plan where
  model : String
  body : Json
  secret : Option Secret
  slot : Option Nat
  deriving Repr

/-- How the outcome of a request is charged to the credentials. -/
inductive Purpose where
  /-- To the slot that is active when the outcome is known. -/
  | active
  /-- To the slot at a place, and to no other. -/
  | slot (index : Nat)
  deriving DecidableEq, Repr

/-- A request at a node whose breaker has admitted it, with the nodes to try after this one. -/
structure Route where
  id : Nat
  purpose : Purpose
  plan : Plan
  node : Node
  rest : List Node
  ticket : BreakerTicket
  deriving Repr

/-- A fleet and the requests under way. -/
structure Fleet where
  http : HttpConfig := {}
  /-- How the addresses of endpoints are read. -/
  readTarget : TargetReader := Target.ofAddress?
  tracker : Tracker
  registry : Registry
  pool : PoolRun Endpoint
  rotation : Rotation
  routes : List Route := []

/-- Something that happens to a request, known by its number. -/
inductive RouteEvent where
  /-- It begins, with the active credential. -/
  | dispatch (request : InferenceRequest)
  /-- It begins, with the credential and the model of a slot. -/
  | drive (pair : KeyModelPair) (body : Json)
  /-- It looks for what the pool gave it. -/
  | collect
  /-- It has waited long enough for the pool. -/
  | expire
  /-- Its call is over. -/
  | answered (result : Except RoutingError Json)
  /-- Nobody waits for it any more. -/
  | drop

/-- Where a request is after an event. -/
inductive Progress where
  /-- The event did not concern it. -/
  | nothing
  /-- It waits for a connection. -/
  | queued
  /-- It waits for the answer to this call, which has to be made. -/
  | calling (call : Call)
  /-- It is over. -/
  | ended (result : Except RoutingError InferenceAnswer)

/-- Where a request is at one node. -/
inductive Attempt where
  | queued
  | calling (call : Call)
  | finished (result : Except RoutingError Json)

/-- The rotation once an outcome has been charged to it: a success, or an error that says something
about an endpoint.  Other errors leave no trace. -/
def Purpose.charge {α : Type} (p : Purpose) (now : Nat) (result : Except RoutingError α)
    (r : Rotation) : Rotation :=
  match p, result with
  | .active, .ok _ => r.reportSuccess
  | .active, .error e =>
    if e.countsAsEndpointFailure then (r.reportFailure now (Failure.ofError now e)).1 else r
  | .slot i, .ok _ => r.recordOutcome now i false
  | .slot i, .error e => if e.countsAsEndpointFailure then r.recordOutcome now i true else r

namespace Fleet

/-- The request with a number. -/
def route? (f : Fleet) (id : Nat) : Option Route :=
  f.routes.find? (·.id == id)

/-- Forgets a request. -/
def forget (f : Fleet) (id : Nat) : Fleet :=
  { f with routes := f.routes.filter (·.id ≠ id) }

/-- Notes where a request is. -/
def keep (f : Fleet) (r : Route) : Fleet :=
  { f with routes := f.routes.filter (·.id ≠ r.id) ++ [r] }

/-- The effect of an event on the pool. -/
def onPool (f : Fleet) (now : Nat) (e : PoolEvent Endpoint) : Fleet × PoolOutcome Endpoint :=
  let (pool, outcome) := f.pool.step now e
  ({ f with pool }, outcome)

/-- Ends an attempt at a node: the breaker learns its verdict. -/
def conclude (f : Fleet) (now : Nat) (r : Route) (result : Except RoutingError Json) :
    Fleet × Attempt :=
  ({ f.forget r.id with registry := f.registry.settle now r.ticket (.ofResult result) },
    .finished result)

/-- Ends a call: the connection goes back to the pool before anything else. -/
def finishCall (f : Fleet) (now : Nat) (r : Route) (result : Except RoutingError Json) :
    Fleet × Attempt :=
  (f.onPool now (.release r.id)).1.conclude now r result

/-- Makes the call over a connection. -/
def makeCall (f : Fleet) (now : Nat) (r : Route) (endpoint : Endpoint) : Fleet × Attempt :=
  match endpoint.chat r.plan.secret r.plan.body f.readTarget with
  | .ok call => (f.keep r, .calling call)
  | .error e => f.finishCall now r (.error e)

/-- Goes on after the pool's answer once no connection has to be opened any more. -/
def afterOpening (f : Fleet) (now : Nat) (r : Route) :
    PoolOutcome Endpoint → Fleet × Attempt
  | .granted lease => f.makeCall now r lease.connection
  | .refused e => f.conclude now r (.error e)
  | _ => (f.keep r, .queued)

/-- Goes on after the pool's answer. -/
def afterPool (f : Fleet) (now : Nat) (r : Route) :
    PoolOutcome Endpoint → Fleet × Attempt
  | .open url =>
    let (f, outcome) := f.onPool now (.opened r.id (Endpoint.connect f.http url))
    f.afterOpening now r outcome
  | outcome => f.afterOpening now r outcome

/-- Attempts a request at a node: asks its breaker, then the pool. -/
def attempt (f : Fleet) (now id : Nat) (purpose : Purpose) (plan : Plan) (node : Node)
    (rest : List Node) : Fleet × Attempt :=
  let (registry, entry) := f.registry.getOrCreate (nodeKey node.id) none
  match registry.enter entry now with
  | (registry, .error e) => ({ f with registry }, .finished (.error e))
  | (registry, .ok ticket) =>
    let r : Route := { id, purpose, plan, node, rest, ticket }
    let (f, outcome) := { f with registry }.onPool now (.acquire id (some node.baseUrl))
    f.afterPool now r outcome

/-- Ends a request and charges its outcome. -/
def deliver (f : Fleet) (now : Nat) (purpose : Purpose)
    (result : Except RoutingError InferenceAnswer) : Fleet × Progress :=
  ({ f with rotation := purpose.charge now result f.rotation }, .ended result)

/-- Goes on after an attempt at a node.  Only an error that does not count against an endpoint moves
the request on. -/
def proceed (now id : Nat) (purpose : Purpose) (plan : Plan) :
    List Node → Node → Fleet → Attempt → Fleet × Progress
  | _, _, f, .queued => (f, .queued)
  | _, _, f, .calling call => (f, .calling call)
  | _, node, f, .finished (.ok value) =>
    f.deliver now purpose (.ok ⟨node.id, plan.model, plan.slot, value⟩)
  | [], _, f, .finished (.error e) => f.deliver now purpose (.error e)
  | next :: rest, _, f, .finished (.error e) =>
    if e.countsAsEndpointFailure then f.deliver now purpose (.error e)
    else
      let (f, a) := f.attempt now id purpose plan next rest
      proceed now id purpose plan rest next f a

/-- Begins at the first of the nodes. -/
def begin (f : Fleet) (now id : Nat) (purpose : Purpose) (plan : Plan) (node : Node)
    (rest : List Node) : Fleet × Progress :=
  let (f, a) := f.attempt now id purpose plan node rest
  proceed now id purpose plan rest node f a

/-- Goes on with a request under way. -/
def resume (r : Route) (now : Nat) (f : Fleet) (a : Attempt) : Fleet × Progress :=
  proceed now r.id r.purpose r.plan r.rest r.node f a

/-- What a request is sent with when it is dispatched now. -/
def planFor (f : Fleet) (model : String) (request : InferenceRequest) : Plan where
  model := model
  body := InferenceRequest.bodyFor model request.body
  secret := f.rotation.currentSecret?
  slot := if f.rotation.slots.isEmpty then none else some f.rotation.active

/-- Begins a request with the active credential.  It is refused at once when no node has the model,
or when every credential is cooling down. -/
def dispatch (f : Fleet) (now id : Nat) (request : InferenceRequest) : Fleet × Progress :=
  let model := request.model.getD f.rotation.currentModel
  match f.tracker.candidates model, f.rotation.ensureAvailable now with
  | [], _ => (f, .ended (.error (.noCapacity model)))
  | _ :: _, .error e => (f, .ended (.error e))
  | node :: rest, .ok () => f.begin now id .active (f.planFor model request) node rest

/-- Begins a request with the credential and the model of a slot. -/
def drive (f : Fleet) (now id : Nat) (pair : KeyModelPair) (body : Json) : Fleet × Progress :=
  match f.tracker.candidates pair.model with
  | [] => (f, .ended (.error (.noCapacity pair.model)))
  | node :: rest =>
    f.begin now id (.slot pair.index)
      { model := pair.model
        body := InferenceRequest.bodyFor pair.model body
        secret := some pair.secret
        slot := some pair.index } node rest

/-- Goes on after an event of the pool that concerns a request. -/
def poolEvent (f : Fleet) (now : Nat) (r : Route) (e : PoolEvent Endpoint) : Fleet × Progress :=
  let (f, outcome) := f.onPool now e
  let (f, a) := f.afterPool now r outcome
  resume r now f a

/-- Gives up a request: what it holds or waits for goes back, and no verdict is given. -/
def giveUp (f : Fleet) (now : Nat) (r : Route) : Fleet :=
  let f := (f.onPool now (.release r.id)).1
  let f := (f.onPool now (.abandon r.id)).1
  { f.forget r.id with registry := f.registry.abandon r.ticket }

/-- The effect of an event on a request under way. -/
def stepRoute (f : Fleet) (now : Nat) (r : Route) : RouteEvent → Fleet × Progress
  | .dispatch _ | .drive .. => (f, .nothing)
  | .collect => f.poolEvent now r (.collect r.id)
  | .expire => f.poolEvent now r (.expire r.id)
  | .answered result =>
    if (f.pool.lease? r.id).isSome then
      let (f, a) := f.finishCall now r result
      resume r now f a
    else (f, .nothing)
  | .drop => (f.giveUp now r, .nothing)

/-- The effect of an event on the request with a number. -/
def step (f : Fleet) (now id : Nat) (e : RouteEvent) : Fleet × Progress :=
  match f.route? id with
  | some r => f.stepRoute now r e
  | none =>
    match e with
    | .dispatch request => f.dispatch now id request
    | .drive pair body => f.drive now id pair body
    | _ => (f, .nothing)

/-- The fleet after a sequence of events, each with its time and the number of its request. -/
def run (f : Fleet) (events : List (Nat × Nat × RouteEvent)) : Fleet :=
  events.foldl (fun f e => (f.step e.1 e.2.1 e.2.2).1) f

/-- What all parts of the fleet publish. -/
def samples (f : Fleet) : List Metrics.Sample :=
  f.tracker.samples ++ f.registry.samples ++ f.pool.pool.samples ++ f.rotation.samples

end Fleet

end InferenceRouting
