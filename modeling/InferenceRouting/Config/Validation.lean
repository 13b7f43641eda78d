import InferenceRouting.Config.Basic
import InferenceRouting.Text.Blank

/-!
# Which configurations are accepted

`Config.checks` lists what is looked at, in order: whether something is wrong, and the words for
it.  A configuration is accepted when nothing is wrong; else the first fault is told.
-/

namespace InferenceRouting.Config

/-- Whether a static node has no address that could be called. -/
def lacksAddress (n : Cluster.StaticNode) : Bool :=
  Blank.isBlankText n.host || n.port == 0

/-- What is checked: whether it is at fault, and the words for the fault. -/
def checks (c : Config) : List (Bool × String) :=
  [(c.pool.maxSize == 0, "pool.max_size must be at least 1"),
   (c.pool.maxSize < c.pool.minSize,
    "pool.min_size (" ++ Decimal.text c.pool.minSize ++ ") exceeds pool.max_size ("
      ++ Decimal.text c.pool.maxSize ++ ")"),
   (!Http.isHttpAddress c.pool.defaultBaseUrl,
    "pool.default_base_url must start with http:// or https://"),
   (c.pool.acquireTimeout == 0 || c.pool.healthInterval == 0,
    "pool.acquire_timeout and pool.health_check_interval must be non-zero"),
   (c.breaker.failureThreshold == 0 || c.breaker.halfOpenMaxAttempts == 0,
    "breaker.failure_threshold and breaker.half_open_max_attempts must be at least 1"),
   (c.breaker.monitorWindow == 0, "breaker.monitor_window must be non-zero"),
   (c.cluster.membership.heartbeatInterval == 0, "cluster.heartbeat_interval must be non-zero"),
   (c.cluster.membership.nodeTimeout < c.cluster.membership.heartbeatInterval,
    "cluster.node_timeout (" ++ Span.ofMillis c.cluster.membership.nodeTimeout
      ++ ") is shorter than cluster.heartbeat_interval ("
      ++ Span.ofMillis c.cluster.membership.heartbeatInterval ++ ")")]
  ++ c.cluster.nodes.map (fun n =>
      (lacksAddress n, "static node " ++ n.diagnostic ++ " needs a host and a non-zero port"))
  ++ [(c.credentials.rotation.maxFailures == 0, "credentials.max_failures must be at least 1"),
   (c.server.host.isEmpty, "server.host cannot be empty")]

/-- The first fault of a configuration. -/
def validate (c : Config) : Except RoutingError Unit :=
  match c.checks.find? (·.1) with
  | some (_, fault) => .error (.configuration fault)
  | none => .ok ()

end InferenceRouting.Config
