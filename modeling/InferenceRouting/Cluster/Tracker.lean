import InferenceRouting.Cluster.Message
import InferenceRouting.Cluster.StaticNode
import InferenceRouting.Metrics
import InferenceRouting.Error

/-!
# The view of the fleet

The tracker keeps one record for each node it knows.  Messages make and change records, nodes can
be added and removed by hand, and a sweep marks the nodes offline that have been silent for too
long.  Every operation tells the events it publishes, in order.

A node that is first heard of through a message gets the address that its payload names, and for
what the payload leaves out the one spelled by its id: the host up to the last colon and the port
after it.  A record never changes its address.
-/

namespace InferenceRouting.Cluster

/-- How the tracker is tuned; times are in milliseconds. -/
structure MembershipConfig where
  heartbeatInterval : Nat := 10000
  nodeTimeout : Nat := 30000
  deriving DecidableEq, Repr

namespace MembershipConfig

/-- Reads the fields of a configuration, each of which may be missing. -/
def ofFields? (fields : Setting.Fields) : Option MembershipConfig := do
  let d : MembershipConfig := {}
  some {
    heartbeatInterval := ← fields.optional "heartbeat_interval" Setting.asMillis?
      d.heartbeatInterval
    nodeTimeout := ← fields.optional "node_timeout" Setting.asMillis? d.nodeTimeout }

/-- The fields of a configuration as they are written: times in whole seconds. -/
def members (c : MembershipConfig) : List (String × Setting) :=
  [("heartbeat_interval", .ofMillis c.heartbeatInterval),
   ("node_timeout", .ofMillis c.nodeTimeout)]

end MembershipConfig

/-- A change in the fleet. -/
inductive MembershipEvent where
  | nodeOnline (id : String)
  | nodeOffline (id : String)
  | nodeRemoved (id : String)
  /-- The first online node with a model has appeared. -/
  | modelAvailable (model : String)
  deriving DecidableEq, Repr

namespace MembershipEvent

/-- An event as it is published. -/
def toJson : MembershipEvent → Json
  | .nodeOnline id => .ofMembers [("event", .str "node_online"), ("node_id", .str id)]
  | .nodeOffline id => .ofMembers [("event", .str "node_offline"), ("node_id", .str id)]
  | .nodeRemoved id => .ofMembers [("event", .str "node_removed"), ("node_id", .str id)]
  | .modelAvailable model =>
    .ofMembers [("event", .str "model_available"), ("model", .str model)]

/-- Whether a node came online. -/
def isNodeOnline : MembershipEvent → Bool
  | .nodeOnline _ => true
  | _ => false

end MembershipEvent

/-- The published counters and gauge of a tracker. -/
structure MembershipMeters where
  online : Nat := 0
  offline : Nat := 0
  gauge : Option Nat := none
  deriving DecidableEq, Repr

/-- The records of the nodes, one for each id. -/
structure Tracker where
  config : MembershipConfig
  nodes : List Node := []
  meters : MembershipMeters := {}
  deriving DecidableEq, Repr

/-- Counts over the fleet. -/
structure ClusterStats where
  totalNodes : Nat
  onlineNodes : Nat
  totalModels : Nat
  uniqueModels : Nat
  deriving DecidableEq, Repr

namespace ClusterStats

/-- The counts as they are published. -/
def toJson (s : ClusterStats) : Json :=
  .ofMembers [
    ("totalNodes", .ofNat s.totalNodes),
    ("onlineNodes", .ofNat s.onlineNodes),
    ("totalModels", .ofNat s.totalModels),
    ("uniqueModels", .ofNat s.uniqueModels)]

end ClusterStats

/-- A text split at its last colon; `none` when it has no colon. -/
def splitAtLastColon (cs : List Char) : Option (List Char × List Char) :=
  match cs with
  | [] => none
  | c :: rest =>
    match splitAtLastColon rest with
    | some (before, after) => some (c :: before, after)
    | none => if c = ':' then some ([], rest) else none

/-- The address of a node first heard of through a message. -/
def addressOf (nodeId : String) (p : NodePayload) : String × Nat :=
  let (idHost, idPort) := match splitAtLastColon nodeId.toList with
    | some (host, port) => (String.ofList host, Decimal.parse? NodePayload.maxPort port)
    | none => (nodeId, none)
  (p.host.getD idHost, (p.port.or idPort).getD 0)

namespace Tracker

/-- A tracker that knows no nodes. -/
def new (config : MembershipConfig) : Tracker :=
  { config }

/-- The record of a node. -/
def node? (t : Tracker) (id : String) : Option Node :=
  t.nodes.find? (·.id == id)

/-- The number of online nodes. -/
def onlineCount (t : Tracker) : Nat :=
  t.nodes.countP Node.isOnline

/-- The models that some online node has. -/
def onlineModels (t : Tracker) : ModelSet :=
  .ofList ((t.nodes.filter Node.isOnline).flatMap Node.models)

/-- Replaces the record of a node. -/
def setNode (t : Tracker) (n : Node) : Tracker :=
  { t with nodes := t.nodes.map fun m => if m.id = n.id then n else m }

/-- Adds the record of a node that is not known. -/
def addRecord (t : Tracker) (n : Node) : Tracker :=
  { t with nodes := t.nodes ++ [n] }

/-- How far the sender's clock is behind, in milliseconds; a clock that is ahead reads as zero, and
an extreme one as the largest difference of 64-bit times. -/
def latency (now : Nat) (timestamp : Int) : Nat :=
  let behind := (Clock.wallMillis now : Int) - timestamp
  (if behind ≤ Json.maxInt64 then behind else Json.maxInt64).toNat

/-- The status that a message gives its sender: a status message names it, any other message means
that the node is online. -/
def statusAfter (m : Message) (p : NodePayload) : NodeStatus :=
  match m.kind with
  | .status => p.status.getD .online
  | _ => .online

/-- The record of a known node after a message from it. -/
def updated (now : Nat) (m : Message) (p : NodePayload) (n : Node) : Node :=
  { n.touch now with
    resources := p.resources.getD n.resources
    models := match p.models with
      | some models => .ofList models
      | none => n.models
    name := p.name.getD n.name
    latencyMs := some (latency now m.timestamp)
    status := statusAfter m p }

/-- The record of a node that is first heard of through a message. -/
def discovered (now : Nat) (m : Message) (p : NodePayload) : Node :=
  let (host, port) := addressOf m.nodeId p
  { Node.new now m.nodeId host port p.name with
    models := .ofList (p.models.getD [])
    resources := p.resources.getD {}
    latencyMs := some (latency now m.timestamp)
    status := .online }

/-- The models available now that were not before, as events in ascending order. -/
def newlyAvailable (before after : ModelSet) : List MembershipEvent :=
  (after.filter fun m => !before.contains m).map .modelAvailable

/-- Publishes the number of online nodes after a node came online. -/
def recordOnline (t : Tracker) : Tracker :=
  { t with meters := { t.meters with
      online := t.meters.online + 1
      gauge := some t.onlineCount } }

/-- Publishes the number of online nodes after `n` nodes went offline. -/
def recordOffline (t : Tracker) (n : Nat) : Tracker :=
  if n = 0 then t
  else { t with meters := { t.meters with
      offline := t.meters.offline + n
      gauge := some t.onlineCount } }

/-- Handles a message.  A status from a node that is not known is ignored. -/
def handle (t : Tracker) (now : Nat) (m : Message) : Tracker × List MembershipEvent :=
  let p := m.nodePayload
  let before := t.onlineModels
  let change : Option (Tracker × List MembershipEvent) := match t.node? m.nodeId with
    | some n =>
      let record := updated now m p n
      some (t.setNode record,
        if record.isOnline && !n.isOnline then [.nodeOnline n.id] else [])
    | none =>
      if m.kind = .status then none
      else some (t.addRecord (discovered now m p), [.nodeOnline m.nodeId])
  match change with
  | none => (t, [])
  | some (t, events) =>
    let all := events ++ newlyAvailable before t.onlineModels
    (if events.isEmpty then t else t.recordOnline, all)

/-- Registers a node by its address, unless the address is known.  Gives its id. -/
def add (t : Tracker) (now : Nat) (host : String) (port : Nat) (name : Option String)
    (models : List String) : Tracker × String :=
  let id := Node.addressId host port
  match t.node? id with
  | some _ => (t, id)
  | none =>
    (t.addRecord { Node.new now id host port name with models := .ofList models }, id)

/-- Registers a node of the configuration. -/
def addStatic (t : Tracker) (now : Nat) (n : StaticNode) : Tracker × String :=
  t.add now n.host n.port n.name n.models

/-- Forgets a node.  The flag says whether it was known. -/
def remove (t : Tracker) (id : String) : Tracker × List MembershipEvent × Bool :=
  match t.node? id with
  | some n => ({ t with nodes := t.nodes.filter (·.id ≠ id) }, [.nodeRemoved n.id], true)
  | none => (t, [], false)

/-- Whether a node counts as reachable but has been silent for longer than the timeout. -/
def isSilent (t : Tracker) (now : Nat) (n : Node) : Bool :=
  (n.status == .online || n.status == .busy) && t.config.nodeTimeout < now - n.lastSeen

/-- The record of a node after a sweep. -/
def sweptNode (t : Tracker) (now : Nat) (n : Node) : Node :=
  if t.isSilent now n then { n with status := .offline } else n

/-- Marks silent nodes offline.  Gives their ids in ascending order. -/
def sweep (t : Tracker) (now : Nat) : Tracker × List MembershipEvent × List String :=
  let offline := ((t.nodes.filter (t.isSilent now)).map Node.id).mergeSort
    fun a b => decide (a ≤ b)
  let swept := { t with nodes := t.nodes.map (t.sweptNode now) }
  (swept.recordOffline offline.length, offline.map .nodeOffline, offline)

/-- Counts over the fleet. -/
def stats (t : Tracker) : ClusterStats where
  totalNodes := t.nodes.length
  onlineNodes := t.onlineCount
  totalModels := t.nodes.foldr (fun n total => n.models.length + total) 0
  uniqueModels := (ModelSet.ofList (t.nodes.flatMap Node.models)).length

/-- All nodes, ordered by id. -/
def listNodes (t : Tracker) : List Node :=
  t.nodes.mergeSort fun a b => decide (a.id ≤ b.id)

/-- What the tracker publishes. -/
def samples (t : Tracker) : List Metrics.Sample :=
  Metrics.counter "cluster_node_online_total" none t.meters.online
    ++ Metrics.counter "cluster_node_offline_total" none t.meters.offline
    ++ Metrics.gauge "cluster_nodes_online" none t.meters.gauge

end Tracker

end InferenceRouting.Cluster
