import InferenceRouting.Clock
import InferenceRouting.Json.Value

/-!
# Node records

A node is one backend of the fleet: its address, what it says of itself, and when it was last heard
of.  Its models are a set, kept as an ascending list without repetitions.
-/

namespace InferenceRouting.Cluster

/-- What a node is doing. -/
inductive NodeStatus where
  | online
  | offline
  | busy
  | unknown
  deriving DecidableEq, Repr

namespace NodeStatus

/-- The name of a status. -/
def text : NodeStatus → String
  | .online => "online"
  | .offline => "offline"
  | .busy => "busy"
  | .unknown => "unknown"

/-- The status with a name. -/
def ofText? (s : String) : Option NodeStatus :=
  if s = "online" then some .online
  else if s = "offline" then some .offline
  else if s = "busy" then some .busy
  else if s = "unknown" then some .unknown
  else none

/-- A status as a name, or as an object that maps the name to `null`. -/
def ofJson? (j : Json) : Option NodeStatus :=
  j.asName?.bind ofText?

end NodeStatus

/-- What a node says of its hardware. -/
structure NodeResources where
  cpuUsage : Option Binary64 := none
  memoryTotal : Option Nat := none
  memoryUsed : Option Nat := none
  gpuName : Option String := none
  gpuMemory : Option Nat := none
  deriving DecidableEq, Repr

namespace NodeResources

/-- The names of the fields. -/
def fields : List String := ["cpuUsage", "memoryTotal", "memoryUsed", "gpuName", "gpuMemory"]

/-- Reads resources; one ill-typed known field spoils them all. -/
def ofJson? (j : Json) : Option NodeResources := do
  let field ← j.record? fields
  let optional {α : Type} (name : String) (read : Json → Option α) : Option (Option α) :=
    match field name with
    | some v => v.asOption? read
    | none => some none
  some {
    cpuUsage := ← optional "cpuUsage" Json.asReal?
    memoryTotal := ← optional "memoryTotal" Json.asNat64?
    memoryUsed := ← optional "memoryUsed" Json.asNat64?
    gpuName := ← optional "gpuName" Json.asString?
    gpuMemory := ← optional "gpuMemory" Json.asNat64? }

/-- Resources as they are published. -/
def toJson (r : NodeResources) : Json :=
  .ofMembers [
    ("cpuUsage", .ofOption (fun x => .num (.real x)) r.cpuUsage),
    ("memoryTotal", .ofOption .ofNat r.memoryTotal),
    ("memoryUsed", .ofOption .ofNat r.memoryUsed),
    ("gpuName", .ofOption .str r.gpuName),
    ("gpuMemory", .ofOption .ofNat r.gpuMemory)]

end NodeResources

/-- A set of model names: ascending, without repetitions. -/
abbrev ModelSet := List String

namespace ModelSet

/-- The set with one more name. -/
def insert (name : String) : ModelSet → ModelSet
  | [] => [name]
  | m :: rest =>
    if name < m then name :: m :: rest
    else if name = m then m :: rest
    else m :: insert name rest

/-- The set of the names in a list. -/
def ofList (names : List String) : ModelSet :=
  names.foldl (fun set name => insert name set) []

end ModelSet

/-- One node of the fleet. -/
structure Node where
  id : String
  name : String
  host : String
  port : Nat
  status : NodeStatus
  models : ModelSet
  resources : NodeResources
  lastSeen : Nat
  latencyMs : Option Nat
  deriving DecidableEq, Repr

namespace Node

/-- A node heard of for the first time at `now`.  It is called by its id if it has no name. -/
def new (now : Nat) (id host : String) (port : Nat) (name : Option String) : Node where
  id := id
  name := name.getD id
  host := host
  port := port
  status := .unknown
  models := []
  resources := {}
  lastSeen := now
  latencyMs := none

/-- The id of a node that is known by its address alone. -/
def addressId (host : String) (port : Nat) : String :=
  host ++ ":" ++ Decimal.text port

/-- The address of a node's HTTP interface. -/
def baseUrl (n : Node) : String :=
  "http://" ++ n.host ++ ":" ++ Decimal.text n.port

/-- Whether a node takes work. -/
def isOnline (n : Node) : Bool :=
  n.status == .online

/-- Whether a node has a model. -/
def serves (n : Node) (model : String) : Bool :=
  n.models.contains model

/-- The node, heard of at `now`. -/
def touch (n : Node) (now : Nat) : Node :=
  { n with lastSeen := now }

/-- A node as it is published. -/
def toJson (n : Node) : Json :=
  .ofMembers [
    ("id", .str n.id),
    ("name", .str n.name),
    ("host", .str n.host),
    ("port", .ofNat n.port),
    ("status", .str n.status.text),
    ("models", .arr (n.models.map .str)),
    ("resources", n.resources.toJson),
    ("lastSeenAt", .str (Clock.wallText n.lastSeen)),
    ("latencyMs", .ofOption .ofNat n.latencyMs)]

end Node

end InferenceRouting.Cluster
