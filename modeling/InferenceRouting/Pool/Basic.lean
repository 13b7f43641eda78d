import InferenceRouting.Error
import InferenceRouting.Metrics
import InferenceRouting.Setting.Basic
import InferenceRouting.Text.Quoted

/-!
# A bounded pool of connections

The pool keeps connections by the address they lead to and never has more than `maxSize` of them,
those being opened (`pending`) included.  A caller that finds neither an idle connection to its
address nor room joins a queue that is served strictly in order of arrival, whatever the addresses:
a freed connection goes to the first in the queue as it is when the address fits, else it is closed
and the room it leaves is handed over.

What has been handed over and not yet been picked up is in `inbox`.  Every operation here is one
uninterrupted step; `Pool.Run` puts them together into acquisitions and sweeps.
-/

namespace InferenceRouting

/-- How a pool is tuned; times are in milliseconds. -/
structure PoolConfig where
  maxSize : Nat := 10
  minSize : Nat := 2
  maxIdle : Nat := 60000
  acquireTimeout : Nat := 5000
  healthInterval : Nat := 30000
  defaultBaseUrl : String := "http://127.0.0.1:11434"
  deriving DecidableEq, Repr

namespace PoolConfig

/-- Reads a configuration, in which every field may be missing. -/
def ofSetting? (s : Setting) : Option PoolConfig := do
  let fields ← s.record? ["max_size", "min_size", "max_idle_time", "acquire_timeout",
    "health_check_interval", "default_base_url"]
  let d : PoolConfig := {}
  some {
    maxSize := ← fields.optional "max_size" (Setting.asNat? Json.maxNat64) d.maxSize
    minSize := ← fields.optional "min_size" (Setting.asNat? Json.maxNat64) d.minSize
    maxIdle := ← fields.optional "max_idle_time" Setting.asMillis? d.maxIdle
    acquireTimeout := ← fields.optional "acquire_timeout" Setting.asMillis? d.acquireTimeout
    healthInterval := ← fields.optional "health_check_interval" Setting.asMillis? d.healthInterval
    defaultBaseUrl := ← fields.optional "default_base_url" Setting.asText? d.defaultBaseUrl }

/-- A configuration as it is written: times in whole seconds. -/
def toSetting (c : PoolConfig) : Setting :=
  .table [
    ("max_size", .ofNat c.maxSize),
    ("min_size", .ofNat c.minSize),
    ("max_idle_time", .ofMillis c.maxIdle),
    ("acquire_timeout", .ofMillis c.acquireTimeout),
    ("health_check_interval", .ofMillis c.healthInterval),
    ("default_base_url", .text c.defaultBaseUrl)]

end PoolConfig

/-- A connection in the pool. -/
structure PoolSlot (κ : Type) where
  id : Nat
  baseUrl : String
  connection : κ
  inUse : Bool
  healthy : Bool
  lastUsedAt : Nat

/-- A connection that somebody holds, named by its slot. -/
structure Lease (κ : Type) where
  id : Nat
  baseUrl : String
  connection : κ

/-- A caller in the queue. -/
structure Waiter where
  id : Nat
  baseUrl : String
  deriving DecidableEq, Repr

/-- What a caller in the queue is given. -/
inductive Delivery (κ : Type) where
  /-- A connection, still marked as in use. -/
  | connection (lease : Lease κ)
  /-- Room to open a connection, already reserved. -/
  | room
  /-- Notice that the pool was shut down. -/
  | closed

/-- Why a connection was closed by the pool. -/
inductive EvictionReason where
  | rebalance
  | handoff
  | unhealthy
  | idle
  | probeFailed
  deriving DecidableEq, Repr

namespace EvictionReason

/-- The name of a reason. -/
def text : EvictionReason → String
  | .rebalance => "rebalance"
  | .handoff => "handoff"
  | .unhealthy => "unhealthy"
  | .idle => "idle"
  | .probeFailed => "probe_failed"

/-- Every reason. -/
def all : List EvictionReason := [.rebalance, .handoff, .unhealthy, .idle, .probeFailed]

end EvictionReason

/-- What a pool publishes.  The gauges have no value until they are first set; evictions are
counted by reason. -/
structure PoolMeters where
  gauges : Option (Nat × Nat) := none
  created : Nat := 0
  timeouts : Nat := 0
  waits : Nat := 0
  evicted : EvictionReason → Nat := fun _ => 0

/-- A pool of connections of type `κ`.  The slots are in the order of their ids. -/
structure Pool (κ : Type) where
  config : PoolConfig
  slots : List (PoolSlot κ) := []
  waiters : List Waiter := []
  /-- The places reserved for connections being opened. -/
  pending : Nat := 0
  /-- The last id given to a slot or to a caller in the queue. -/
  lastId : Nat := 0
  closed : Bool := false
  totalRequests : Nat := 0
  /-- The time that successful acquisitions took, in all. -/
  totalWait : Nat := 0
  waitSamples : Nat := 0
  /-- What was handed over to callers in the queue, in order. -/
  inbox : List (Nat × Delivery κ) := []
  meters : PoolMeters := {}

/-- A pool at one instant. -/
structure PoolStats where
  total : Nat
  active : Nat
  idle : Nat
  capacity : Nat
  waiting : Nat
  totalRequests : Nat
  averageWaitMs : Binary64
  healthy : Nat
  deriving DecidableEq, Repr

namespace Pool

variable {κ : Type}

/-- An empty pool; refused when it could hold nothing, or less than it is to keep. -/
def new (config : PoolConfig) : Except RoutingError (Pool κ) :=
  if config.maxSize = 0 ∨ config.maxSize < config.minSize then
    .error (.configuration ("invalid pool sizing: min_size=" ++ Decimal.text config.minSize
      ++ " max_size=" ++ Decimal.text config.maxSize))
  else .ok { config }

/-- The places taken: connections and reservations. -/
def size (p : Pool κ) : Nat :=
  p.slots.length + p.pending

/-- The number of connections in use. -/
def activeCount (p : Pool κ) : Nat :=
  p.slots.countP (·.inUse)

/-- Sets the gauges to the present counts. -/
def publish (p : Pool κ) : Pool κ :=
  { p with meters := { p.meters with
      gauges := some (p.activeCount, p.slots.length - p.activeCount) } }

/-- Counts a connection that was closed. -/
def countEviction (p : Pool κ) (reason : EvictionReason) : Pool κ :=
  { p with meters := { p.meters with
      evicted := fun r => if r = reason then p.meters.evicted r + 1 else p.meters.evicted r } }

/-- The slot with an id. -/
def slot? (p : Pool κ) (id : Nat) : Option (PoolSlot κ) :=
  p.slots.find? (·.id == id)

/-- Changes the slot with an id. -/
def setSlot (p : Pool κ) (id : Nat) (f : PoolSlot κ → PoolSlot κ) : Pool κ :=
  { p with slots := p.slots.map fun s => if s.id = id then f s else s }

/-- Takes the slot with an id out of the pool. -/
def removeSlot (p : Pool κ) (id : Nat) : Pool κ :=
  { p with slots := p.slots.filter (·.id ≠ id) }

/-- Closes the connection of a slot. -/
def evict (p : Pool κ) (id : Nat) (reason : EvictionReason) : Pool κ :=
  (p.removeSlot id).countEviction reason

/-- The lease of a slot. -/
def lease (s : PoolSlot κ) : Lease κ :=
  ⟨s.id, s.baseUrl, s.connection⟩

/-- Marks the slot with an id as in use. -/
def checkout (p : Pool κ) (now : Nat) (id : Nat) : Pool κ :=
  p.setSlot id fun s => { s with inUse := true, lastUsedAt := now }

/-- Adds a slot under the next id. -/
def insert (p : Pool κ) (now : Nat) (baseUrl : String) (connection : κ) (inUse : Bool) : Pool κ :=
  { p with
    lastId := p.lastId + 1
    slots := p.slots ++ [⟨p.lastId + 1, baseUrl, connection, inUse, true, now⟩] }

/-- The first idle connection to an address. -/
def idleFor? (p : Pool κ) (baseUrl : String) : Option (PoolSlot κ) :=
  p.slots.find? fun s => !s.inUse && s.healthy && s.baseUrl == baseUrl

/-- The slot that was used longest ago, the first of several. -/
def leastRecent? : List (PoolSlot κ) → Option (PoolSlot κ)
  | [] => none
  | s :: rest =>
    match leastRecent? rest with
    | none => some s
    | some t => if s.lastUsedAt ≤ t.lastUsedAt then some s else some t

/-- The idle connection to another address that was used longest ago. -/
def idleElsewhere? (p : Pool κ) (baseUrl : String) : Option (PoolSlot κ) :=
  leastRecent? (p.slots.filter fun s => !s.inUse && s.baseUrl != baseUrl)

/-- Hands something over to a caller that has left the queue. -/
def deliver (p : Pool κ) (w : Waiter) (d : Delivery κ) : Pool κ :=
  { p with inbox := p.inbox ++ [(w.id, d)] }

/-- Gives room to callers in the queue while there is any. -/
def grantRoom (p : Pool κ) : Pool κ :=
  go p p.waiters
where
  /-- Serves the callers given, which are those in the queue. -/
  go (p : Pool κ) : List Waiter → Pool κ
    | [] => p
    | w :: rest =>
      if p.size < p.config.maxSize then
        go ({ p with waiters := rest, pending := p.pending + 1 }.deliver w .room) rest
      else p

/-- Hands a connection on to the first in the queue, or lets it be idle.  A caller for another
address gets the room instead: the connection is closed, and the caller opens its own. -/
def offer (p : Pool κ) (now : Nat) (id : Nat) : Pool κ :=
  match p.slot? id with
  | none => p
  | some s =>
    match p.waiters with
    | [] => p.setSlot id fun s => { s with inUse := false }
    | w :: rest =>
      let p := { p with waiters := rest }
      if w.baseUrl = s.baseUrl then (p.checkout now id).deliver w (.connection (lease s))
      else
        let p := p.evict id .handoff
        ({ p with pending := p.pending + 1 }.deliver w .room).grantRoom

/-- Takes back a connection.  An unhealthy one is closed. -/
def release (p : Pool κ) (now : Nat) (id : Nat) : Pool κ :=
  match p.slot? id with
  | none => p
  | some s =>
    let p := p.setSlot id fun s => { s with lastUsedAt := now }
    let p := if !s.healthy || p.closed then (p.evict id .unhealthy).grantRoom else p.offer now id
    p.publish

/-- Gives a reserved place back. -/
def dropReservation (p : Pool κ) : Pool κ :=
  { p with pending := p.pending - 1 }.grantRoom

/-- Takes back what was handed over to a caller that has gone. -/
def reclaim (p : Pool κ) (now : Nat) : Delivery κ → Pool κ
  | .connection l => p.release now l.id
  | .room => p.dropReservation
  | .closed => p

/-- Marks a connection as unhealthy. -/
def markUnhealthy (p : Pool κ) (id : Nat) : Pool κ :=
  p.setSlot id fun s => { s with healthy := false }

/-- Puts an opened connection in the place reserved for it, in use.  Fails after a shutdown. -/
def commitLeased (p : Pool κ) (now : Nat) (baseUrl : String) (connection : κ) :
    Pool κ × Except RoutingError (Lease κ) :=
  let p := { p with
    pending := p.pending - 1
    meters := { p.meters with created := p.meters.created + 1 } }
  if p.closed then (p, .error .poolClosed)
  else
    let p := (p.insert now baseUrl connection true).publish
    (p, .ok ⟨p.lastId, baseUrl, connection⟩)

/-- Puts an opened connection in the place reserved for it and offers it.  The flag says whether
the pool took it. -/
def commitIdle (p : Pool κ) (now : Nat) (baseUrl : String) (connection : κ) : Pool κ × Bool :=
  let p := { p with
    pending := p.pending - 1
    meters := { p.meters with created := p.meters.created + 1 } }
  if p.closed then (p, false)
  else
    let p := p.insert now baseUrl connection false
    ((p.offer now p.lastId).publish, true)

/-- Reserves a place for a connection to keep the pool at its least size; `none` when it is large
enough, full, closed, or wanted by callers. -/
def reserveWarm? (p : Pool κ) : Option (Pool κ) :=
  if p.closed || !p.waiters.isEmpty || p.config.minSize ≤ p.size || p.config.maxSize ≤ p.size then
    none
  else some { p with pending := p.pending + 1 }

/-- Counts a successful acquisition that began at `started`. -/
def recordWait (p : Pool κ) (now started : Nat) : Pool κ :=
  let p := { p with totalWait := p.totalWait + (now - started), waitSamples := p.waitSamples + 1 }
  let p := p.publish
  { p with meters := { p.meters with waits := p.meters.waits + 1 } }

/-- Puts a slot at its place among slots ordered by the time of their last use. -/
def insertByAge (s : PoolSlot κ) : List (PoolSlot κ) → List (PoolSlot κ)
  | [] => [s]
  | t :: rest => if s.lastUsedAt < t.lastUsedAt then s :: t :: rest else t :: insertByAge s rest

/-- The idle slots, the one used longest ago first. -/
def idleByAge (p : Pool κ) : List (PoolSlot κ) :=
  (p.slots.filter fun s => !s.inUse).foldl (fun acc s => insertByAge s acc) []

/-- Whether a slot has been unused for more than the idle time. -/
def isExpired (p : Pool κ) (now : Nat) (s : PoolSlot κ) : Bool :=
  p.config.maxIdle < now - s.lastUsedAt

/-- Closes the expired ones among idle slots while more than the least size would be left; the
others are to be probed. -/
def retire (now : Nat) : Pool κ → List (PoolSlot κ) → Pool κ × List (Lease κ)
  | p, [] => (p, [])
  | p, s :: rest =>
    if p.isExpired now s && p.config.minSize < p.size then retire now (p.evict s.id .idle) rest
    else
      let (p, candidates) := retire now p rest
      (p, lease s :: candidates)

/-- The first part of a sweep; `none` when the pool is closed. -/
def beginSweep? (p : Pool κ) (now : Nat) : Option (Pool κ × List (Lease κ)) :=
  if p.closed then none
  else
    let (p, candidates) := retire now p p.idleByAge
    some (p.grantRoom, candidates)

/-- Applies the result of one probe.  An idle connection that failed is closed; one picked up since
is flagged, to be closed when it is given back. -/
def applyProbe (p : Pool κ) (id : Nat) (alive : Bool) : Pool κ :=
  match p.slot? id with
  | none => p
  | some s =>
    if alive then
      if s.inUse then p else p.setSlot id fun s => { s with healthy := true }
    else if s.inUse then p.markUnhealthy id
    else p.evict id .probeFailed

/-- The second part of a sweep: the results of the probes. -/
def applyProbes (p : Pool κ) (results : List (Nat × Bool)) : Pool κ :=
  (results.foldl (fun p r => p.applyProbe r.1 r.2) p).grantRoom.publish

/-- Drops all connections and sends the whole queue away. -/
def shutdown (p : Pool κ) : Pool κ :=
  let p := { p with
    closed := true
    slots := []
    waiters := []
    inbox := p.inbox ++ p.waiters.map fun (w : Waiter) => (w.id, Delivery.closed) }
  p.publish

/-- The mean time of `samples` successful acquisitions that took `total` milliseconds in all. -/
def meanWait (total samples : Nat) : Binary64 :=
  let mean := do
    let part ← (← Binary64.ofNat? (total % 1000 * 1000000)).div (← Binary64.ofNat? 1000000000)
    let seconds ← (← Binary64.ofNat? (total / 1000)).addMagnitudes part
    (← seconds.mul (← Binary64.ofNat? 1000)).div (← Binary64.ofNat? samples)
  if samples = 0 then Binary64.zero false else mean.getD (Binary64.zero false)

/-- The counts of a pool at `now`. -/
def stats (p : Pool κ) (now : Nat) : PoolStats where
  total := p.slots.length
  active := p.activeCount
  idle := p.slots.length - p.activeCount
  capacity := p.config.maxSize
  waiting := p.waiters.length
  totalRequests := p.totalRequests
  averageWaitMs := meanWait p.totalWait p.waitSamples
  healthy := p.slots.countP fun s => now - s.lastUsedAt ≤ p.config.maxIdle

/-- What a pool publishes. -/
def samples (p : Pool κ) : List Metrics.Sample :=
  Metrics.gauge "connection_pool_active_connections" none (p.meters.gauges.map (·.1))
    ++ Metrics.gauge "connection_pool_idle_connections" none (p.meters.gauges.map (·.2))
    ++ Metrics.counter "connection_pool_created_connections_total" none p.meters.created
    ++ Metrics.counter "connection_pool_acquire_timeouts_total" none p.meters.timeouts
    ++ Metrics.counter "connection_pool_acquire_wait_seconds_count" none p.meters.waits
    ++ EvictionReason.all.flatMap fun r =>
      Metrics.counter "connection_pool_evicted_connections_total" (some ("reason", r.text))
        (p.meters.evicted r)

end Pool

namespace PoolStats

/-- One line for people. -/
def text (s : PoolStats) : String :=
  "Pool: " ++ Decimal.text s.total ++ "/" ++ Decimal.text s.capacity ++ " total, "
    ++ Decimal.text s.active ++ " active, " ++ Decimal.text s.idle ++ " idle, "
    ++ Decimal.text s.waiting ++ " waiting"

/-- The counts as they are published. -/
def toJson (s : PoolStats) : Json :=
  .ofMembers [
    ("total_connections", .ofNat s.total),
    ("active_connections", .ofNat s.active),
    ("idle_connections", .ofNat s.idle),
    ("max_connections", .ofNat s.capacity),
    ("pending_waiters", .ofNat s.waiting),
    ("total_requests", .ofNat s.totalRequests),
    ("average_wait_ms", .num (.real s.averageWaitMs)),
    ("healthy_connections", .ofNat s.healthy)]

end PoolStats

namespace Lease

variable {κ : Type}

/-- A lease in a diagnostic text. -/
def diagnostic (l : Lease κ) : String :=
  "PooledConnection \x7b id: " ++ Decimal.text l.id ++ ", base_url: " ++ Quoted.text l.baseUrl
    ++ " \x7d"

end Lease

end InferenceRouting
