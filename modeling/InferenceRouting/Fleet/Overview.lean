import InferenceRouting.Fleet.Basic

/-!
# What operators see

A fleet offers four pages: its health, an overview of all its parts, its metrics, and one that
closes every breaker by hand.  Looking at a breaker applies a cool-down that is over, so a page may
change the fleet; nothing else on a page does, except the closing of breakers.

The metrics page of a fleet without a recorder is empty.
-/

namespace InferenceRouting

open Cluster (ClusterStats Node)
open Credential (Rotation)

/-- All parts of a fleet at one instant. -/
structure FleetOverview where
  uptimeSeconds : Nat
  pool : PoolStats
  breakers : List BreakerReport
  credentials : Rotation.Status
  cluster : ClusterStats
  nodes : List Node

/-- An overview as it is published. -/
def FleetOverview.toJson (o : FleetOverview) : Json :=
  .ofMembers [
    ("uptime_seconds", .ofNat o.uptimeSeconds),
    ("pool", o.pool.toJson),
    ("breakers", .ofMembers (o.breakers.map fun b => (b.name, b.toJson))),
    ("credentials", o.credentials.toJson),
    ("cluster", o.cluster.toJson),
    ("nodes", .arr (o.nodes.map Node.toJson))]

/-- Whether a fleet can take requests, and why not. -/
structure FleetHealth where
  onlineNodes : Nat
  credentialsExhausted : Bool
  poolClosed : Bool
  deriving DecidableEq, Repr

namespace FleetHealth

/-- A fleet is degraded when no request can succeed. -/
def isDegraded (h : FleetHealth) : Bool :=
  h.onlineNodes == 0 || h.credentialsExhausted || h.poolClosed

/-- The name under which the fleet presents itself. -/
def serviceName : String := "fleet-router"

/-- The version under which the fleet presents itself. -/
def serviceVersion : String := "1.0.0"

/-- The health of a fleet as it is published. -/
def toJson (h : FleetHealth) : Json :=
  .ofMembers [
    ("status", .str (if h.isDegraded then "degraded" else "healthy")),
    ("service", .str serviceName),
    ("version", .str serviceVersion),
    ("online_nodes", .ofNat h.onlineNodes),
    ("credentials_exhausted", .bool h.credentialsExhausted)]

end FleetHealth

/-- A page for operators. -/
inductive FleetPage where
  | health
  | overview
  | metrics
  | resetBreakers
  deriving DecidableEq, Repr

namespace FleetPage

/-- The page at a path. -/
def ofPath? (path : String) : Option FleetPage :=
  match path with
  | "/health" => some .health
  | "/stats" => some .overview
  | "/metrics" => some .metrics
  | "/admin/breakers/reset" => some .resetBreakers
  | _ => none

/-- Whether a page answers a method. -/
def allows (p : FleetPage) (method : String) : Bool :=
  match p with
  | .resetBreakers => method == "POST"
  | _ => method == "GET" || method == "HEAD"

/-- The path in the address of a page: without scheme and host, and without a query. -/
def pathOf (uri : String) : String :=
  let cs := uri.toList
  let cs := if "http://".toList.isPrefixOf cs then (cs.drop 7).dropWhile (· ≠ '/') else cs
  String.ofList (cs.takeWhile fun c => c ≠ '?' && c ≠ '#')

end FleetPage

namespace Fleet

/-- All parts of a fleet at time `now`. -/
def overview (f : Fleet) (now : Nat) : Fleet × FleetOverview :=
  let (registry, breakers) := f.registry.reports now
  ({ f with registry }, {
    uptimeSeconds := now / 1000
    pool := f.pool.pool.stats now
    breakers
    credentials := f.rotation.status now
    cluster := f.tracker.stats
    nodes := f.tracker.listNodes })

/-- The health of a fleet at time `now`. -/
def health (f : Fleet) (now : Nat) : FleetHealth where
  onlineNodes := f.tracker.stats.onlineNodes
  credentialsExhausted := f.rotation.allCooling now
  poolClosed := f.pool.pool.closed

/-- A reply with JSON. -/
def jsonReply (body : Json) : HttpReply :=
  ⟨200, none, some "application/json", body⟩

/-- A reply without content. -/
def emptyReply (status : Nat) : HttpReply :=
  ⟨status, none, none, .str ""⟩

/-- The content of a page at time `now`. -/
def page (f : Fleet) (now : Nat) : FleetPage → Fleet × HttpReply
  | .health => (f, jsonReply (f.health now).toJson)
  | .overview =>
    let (f, o) := f.overview now
    (f, jsonReply o.toJson)
  | .metrics => (f, ⟨200, none, some "text/plain; version=0.0.4", .str ""⟩)
  | .resetBreakers =>
    let f := { f with registry := f.registry.resetAll }
    (f, jsonReply (.ofMembers [
      ("status", .str "success"), ("reset", .ofNat f.registry.size)]))

/-- The reply to an operator's request.  A question about what is allowed is always answered, and a
request for the head alone gets no content. -/
def serve (f : Fleet) (now : Nat) (method uri : String) : Fleet × HttpReply :=
  if method = "OPTIONS" then (f, emptyReply 200)
  else match FleetPage.ofPath? (FleetPage.pathOf uri) with
    | none => (f, emptyReply 404)
    | some p =>
      if p.allows method then
        let (f, reply) := f.page now p
        (f, if method = "HEAD" then { reply with body := .str "" } else reply)
      else (f, emptyReply 405)

end Fleet

end InferenceRouting
