import InferenceRouting.Fleet.Overview
import InferenceRouting.Http.Script

/-!
# A fleet in use

A session runs a fleet against scripted endpoints.  Requests, the slots of a fan-out and sweeps of
the pool are tasks on one thread: a task runs until it has to wait, and one that is woken takes its
place at the end of `ready`.  An answer that is not held up is on its way as soon as the request is
sent, and reaches its task when no other task can run.

Time moves from one deadline to the next, those of one instant in the order in which they were set.
Nothing but a held-up answer or the pool's queue takes time.
-/

namespace InferenceRouting

open Cluster (Message)
open Credential (Failure KeyModelPair Rotation RotationConfig)
open Http (Call Endpoint HttpConfig Method Reaction Request Response Script Target TargetReader)

/-- What a task does. -/
inductive FleetWork where
  | dispatch (request : InferenceRequest)
  /-- One slot of a fan-out. -/
  | drive (pair : KeyModelPair) (body : Json)
  /-- Sweeps the pool once. -/
  | sweep

/-- What a task waits for. -/
inductive FleetWait where
  /-- Its first turn. -/
  | turn
  /-- Its turn in the pool's queue, until a deadline. -/
  | queue (deadline order : Nat)
  /-- The answer to its call. -/
  | answer
  /-- Its next turn, with the result of its call. -/
  | answered (result : Except RoutingError Json)
  /-- The answers to the probes of a sweep; those that came so far. -/
  | probes (results : List (Nat × Bool))

/-- A task; its number is also that of the request or the sweep it stands for. -/
structure FleetTask where
  id : Nat
  label : String
  work : FleetWork
  wait : FleetWait := .turn
  cancelled : Bool := false

/-- A call that a task waits for; for a probe also the connection that is probed. -/
structure Exchange where
  id : Nat
  task : Nat
  probed : Option (Lease Endpoint)
  deadline : Nat
  order : Nat
  overdue : RoutingError

/-- A fan-out: its slots by task, and the results that are in. -/
structure FanOut where
  label : String
  slots : List (Nat × KeyModelPair)
  results : List (Nat × Except RoutingError InferenceAnswer) := []

/-- The result of one slot of a fan-out. -/
structure SlotResult where
  index : Nat
  model : String
  result : Except RoutingError InferenceAnswer

/-- The results of a fan-out in the order of its slots, once all are in. -/
def FanOut.results? (o : FanOut) : Option (List SlotResult) :=
  o.slots.mapM fun (task, pair) =>
    (o.results.lookup task).map fun result => ⟨pair.index, pair.model, result⟩

/-- How a task ended. -/
inductive FleetEnd where
  | dispatched (result : Except RoutingError InferenceAnswer)
  | fannedOut (results : List SlotResult)
  | swept
  | cancelled

/-- A fleet in use. -/
structure FleetSession where
  fleet : Fleet
  script : Script
  now : Nat := 0
  tasks : List FleetTask := []
  ready : List Nat := []
  fanOuts : List FanOut := []
  exchanges : List Exchange := []
  /-- The answers on their way, by exchange. -/
  arriving : List (Nat × Except RoutingError Response) := []
  /-- The answers that are held up, by name and exchange. -/
  held : List (String × Nat × Except RoutingError Response) := []
  /-- The requests that have arrived. -/
  requests : List Request := []
  finished : List (String × FleetEnd) := []
  nextTask : Nat := 1
  nextExchange : Nat := 0
  nextOrder : Nat := 0

namespace FleetSession

/-- The task with a number. -/
def task? (s : FleetSession) (id : Nat) : Option FleetTask :=
  s.tasks.find? (·.id == id)

/-- Makes a task wait. -/
def pause (s : FleetSession) (t : FleetTask) (w : FleetWait) : FleetSession :=
  { s with tasks := s.tasks.map fun u => if u.id = t.id then { t with wait := w } else u }

/-- Wakes a task, unless it is awake. -/
def wake (s : FleetSession) (id : Nat) : FleetSession :=
  if s.ready.contains id then s else { s with ready := s.ready ++ [id] }

/-- Replaces the fleet, and wakes those that its pool has given something. -/
def setFleet (s : FleetSession) (f : Fleet) : FleetSession :=
  f.pool.pool.inbox.foldl (fun s d =>
    match f.pool.acquisitions.find? (·.phase == .queued d.1) with
    | some a => s.wake a.caller
    | none => s) { s with fleet := f }

/-- The effect of an event on the pool. -/
def onPool (s : FleetSession) (e : PoolEvent Endpoint) :
    FleetSession × PoolOutcome Endpoint :=
  let (f, outcome) := s.fleet.onPool s.now e
  (s.setFleet f, outcome)

/-- Forgets a task with all it waits for. -/
def removeTask (s : FleetSession) (id : Nat) : FleetSession :=
  { s with
    tasks := s.tasks.filter (·.id ≠ id)
    exchanges := s.exchanges.filter (·.task ≠ id) }

/-- Notes how a labelled task ended. -/
def note (s : FleetSession) (label : String) (e : FleetEnd) : FleetSession :=
  { s with finished := s.finished ++ [(label, e)] }

/-- Hands over the fan-outs whose results are all in. -/
def collectFanOuts (s : FleetSession) : FleetSession :=
  s.fanOuts.foldl (fun s o =>
    match o.results? with
    | some results => s.note o.label (.fannedOut results)
    | none => { s with fanOuts := s.fanOuts ++ [o] }) { s with fanOuts := [] }

/-- A fan-out with the result of a task, if the task is one of its slots. -/
def addResult (task : Nat) (result : Except RoutingError InferenceAnswer) (o : FanOut) : FanOut :=
  if (o.slots.lookup task).isSome then { o with results := o.results ++ [(task, result)] } else o

/-- Ends the task of a request. -/
def finish (s : FleetSession) (t : FleetTask) (result : Except RoutingError InferenceAnswer) :
    FleetSession :=
  let s := s.removeTask t.id
  match t.work with
  | .drive .. => { s with fanOuts := s.fanOuts.map (addResult t.id result) }.collectFanOuts
  | _ => s.note t.label (.dispatched result)

/-- Sends the request of a call. -/
def send (s : FleetSession) (task : Nat) (call : Call) (probed : Option (Lease Endpoint)) :
    FleetSession :=
  let (script, reaction) := s.script.react call.request
  let id := s.nextExchange
  let exchange : Exchange := {
    id, task, probed
    deadline := s.now + call.limit
    order := s.nextOrder
    overdue := call.overdue }
  let s := { s with
    script
    requests := s.requests ++ [call.request]
    exchanges := s.exchanges ++ [exchange]
    nextExchange := id + 1
    nextOrder := s.nextOrder + 1 }
  match reaction.hold with
  | some name => { s with held := s.held ++ [(name, id, reaction.result)] }
  | none => { s with arriving := s.arriving ++ [(id, reaction.result)] }

/-- Goes on with a request after an event.  `fuel` bounds the nodes it moves on to at once because
it may not wait in the queue at all. -/
def follow : Nat → FleetSession → FleetTask → Progress → FleetSession
  | 0, s, _, _ => s
  | _ + 1, s, t, .ended result => s.finish t result
  | _ + 1, s, t, .calling call => (s.pause t .answer).send t.id call none
  | fuel + 1, s, t, .queued =>
    let limit := s.fleet.pool.pool.config.acquireTimeout
    if limit = 0 then
      let (f, p) := s.fleet.step s.now t.id .expire
      follow fuel (s.setFleet f) t p
    else { s.pause t (.queue (s.now + limit) s.nextOrder) with nextOrder := s.nextOrder + 1 }
  | _ + 1, s, _, .nothing => s

/-- The effect of an event on the request of a task. -/
def onRoute (s : FleetSession) (t : FleetTask) (e : RouteEvent) : FleetSession :=
  let (f, p) := s.fleet.step s.now t.id e
  follow (s.fleet.tracker.nodes.length + 2) (s.setFleet f) t p

/-- Sends the probes of a sweep.  One that cannot be sent has failed. -/
def sendProbes (s : FleetSession) (task : Nat) (candidates : List (Lease Endpoint)) :
    FleetSession × List (Nat × Bool) :=
  candidates.foldl (fun (s, failed) lease =>
    match lease.connection.probe s.fleet.readTarget with
    | .ok call => (s.send task call (some lease), failed)
    | .error _ => (s, failed ++ [(lease.id, false)])) (s, [])

/-- Goes on with a sweep until it has to wait.  `fuel` bounds its steps. -/
def continueSweep : Nat → FleetSession → FleetTask → PoolOutcome Endpoint → FleetSession
  | 0, s, t, _ => (s.removeTask t.id).note t.label .swept
  | fuel + 1, s, t, .probe candidates =>
    let (s, failed) := s.sendProbes t.id candidates
    if failed.length < candidates.length then s.pause t (.probes failed)
    else
      let (s, o) := s.onPool (.probed t.id failed)
      continueSweep fuel s t o
  | fuel + 1, s, t, .refill =>
    let (s, o) := s.onPool (.refill t.id)
    continueSweep fuel s t o
  | fuel + 1, s, t, .fill url =>
    let (s, o) := s.onPool (.warmed t.id (Endpoint.connect s.fleet.http url))
    continueSweep fuel s t o
  | _ + 1, s, t, _ => (s.removeTask t.id).note t.label .swept

/-- Runs a sweep after an event. -/
def onSweep (s : FleetSession) (t : FleetTask) (e : PoolEvent Endpoint) : FleetSession :=
  let (s, o) := s.onPool e
  continueSweep (2 * s.fleet.pool.pool.config.maxSize + 4) s t o

/-- The tasks of the fan-outs with a label. -/
def fanOutTasks (s : FleetSession) (label : String) : List Nat :=
  (s.fanOuts.filter (·.label == label)).flatMap fun o => o.slots.map (·.1)

/-- Drops a task that was cancelled.  A fan-out has ended with the last of its slots. -/
def dropTask (s : FleetSession) (t : FleetTask) : FleetSession :=
  match t.work with
  | .sweep => ((s.onPool (.abandonSweep t.id)).1.removeTask t.id).note t.label .cancelled
  | .dispatch _ =>
    ((s.setFleet (s.fleet.step s.now t.id .drop).1).removeTask t.id).note t.label .cancelled
  | .drive .. =>
    let s := (s.setFleet (s.fleet.step s.now t.id .drop).1).removeTask t.id
    if s.tasks.any fun u => (s.fanOutTasks t.label).contains u.id then s
    else { s with fanOuts := s.fanOuts.filter (·.label != t.label) }.note t.label .cancelled

/-- Gives a task its turn. -/
def runTask (s : FleetSession) (t : FleetTask) : FleetSession :=
  match t.work, t.wait with
  | .dispatch request, .turn => s.onRoute t (.dispatch request)
  | .drive pair body, .turn => s.onRoute t (.drive pair body)
  | .sweep, .turn => s.onSweep t (.sweep t.id)
  | _, .queue deadline _ => s.onRoute t (if deadline ≤ s.now then .expire else .collect)
  | _, .answered result => s.onRoute t (.answered result)
  | _, .probes results => s.onSweep t (.probed t.id results)
  | _, .answer => s

/-- Gives the task with a number its turn. -/
def runId (s : FleetSession) (id : Nat) : FleetSession :=
  match s.task? id with
  | none => s
  | some t => if t.cancelled then s.dropTask t else s.runTask t

/-- Ends an exchange; the task that waits for it is woken, a sweep with its last probe. -/
def resolve (s : FleetSession) (id : Nat) (outcome : Except RoutingError Response) :
    FleetSession :=
  match s.exchanges.find? (·.id == id) with
  | none => s
  | some x =>
    let s := { s with exchanges := s.exchanges.filter (·.id ≠ id) }
    match s.task? x.task, x.probed with
    | none, _ => s
    | some t, none => (s.pause t (.answered (outcome.bind Endpoint.readChat))).wake t.id
    | some t, some lease =>
      let alive := match outcome.bind lease.connection.readProbe with
        | .ok _ => true
        | .error _ => false
      let results := match t.wait with
        | .probes results => results
        | _ => []
      let s := s.pause t (.probes (results ++ [(lease.id, alive)]))
      if s.exchanges.any (·.task == t.id) then s else s.wake t.id

/-- Runs tasks until all wait and no answer is on its way.  `fuel` bounds the turns. -/
def drain : Nat → FleetSession → FleetSession
  | 0, s => s
  | fuel + 1, s =>
    match s.ready, s.arriving with
    | id :: rest, _ => drain fuel ({ s with ready := rest }.runId id)
    | [], (id, outcome) :: rest => drain fuel ({ s with arriving := rest }.resolve id outcome)
    | [], [] => s

/-- The turns that tasks can take at one instant: at each node a request begins or is given
something, sends its call, and is answered; a sweep has one turn per probe. -/
def turns (s : FleetSession) : Nat :=
  let perTask := 4 * (s.fleet.tracker.nodes.length + 2) + s.fleet.pool.pool.config.maxSize
  (s.tasks.length + 1) * perTask + s.ready.length + s.arriving.length

/-- Runs tasks until all wait. -/
def settle (s : FleetSession) : FleetSession :=
  drain s.turns s

/-- The deadline a task waits for, with its place in the order. -/
def queueTimer? (t : FleetTask) : Option (Nat × Nat × Nat) :=
  match t.wait with
  | .queue deadline order => some (deadline, order, t.id)
  | _ => none

/-- The earliest deadline not after `limit`. -/
def nextDeadline? (s : FleetSession) (limit : Nat) : Option Nat :=
  (((s.tasks.filterMap queueTimer?).map (·.1)) ++ s.exchanges.map (·.deadline)).min?.filter
    (· ≤ limit)

/-- What rings at an instant: its place in the order, and its effect. -/
def dueAt (s : FleetSession) (t : Nat) : List (Nat × (FleetSession → FleetSession)) :=
  ((s.tasks.filterMap queueTimer?).filter (·.1 ≤ t)).map
      (fun timer => (timer.2.1, fun (s : FleetSession) => s.wake timer.2.2))
    ++ (s.exchanges.filter (·.deadline ≤ t)).map
      (fun x => (x.order, fun (s : FleetSession) => s.resolve x.id (.error x.overdue)))

/-- Rings the timers of an instant in the order in which they were set. -/
def ring (s : FleetSession) (t : Nat) : FleetSession :=
  let ordered := (s.dueAt t).mergeSort fun a b => decide (a.1 ≤ b.1)
  let fleet := { s.fleet with registry := s.fleet.registry.fireDue t }
  ordered.foldl (fun s timer => timer.2 s) { s with now := t, fleet }

/-- Moves time to `limit`, each timer ringing on the way.  `fuel` bounds the instants. -/
def advanceTo : Nat → Nat → FleetSession → FleetSession
  | 0, limit, s => s.ring limit
  | fuel + 1, limit, s =>
    match s.nextDeadline? limit with
    | some t => advanceTo fuel limit (s.ring t).settle
    | none => s.ring limit

/-- Lets time pass.  At each node a request waits at most for the pool and for its answer. -/
def advance (s : FleetSession) (ms : Nat) : FleetSession :=
  advanceTo ((s.tasks.length + s.exchanges.length + 1) * (2 * s.fleet.tracker.nodes.length + 2))
    (s.now + ms) s

/-- Begins a task. -/
def spawn (s : FleetSession) (label : String) (work : FleetWork) : FleetSession :=
  let t : FleetTask := { id := s.nextTask, label, work }
  { s with tasks := s.tasks ++ [t], nextTask := s.nextTask + 1 }.wake t.id

/-- Begins a fan-out: one task for each slot. -/
def fanOut (s : FleetSession) (label : String) (body : Json) : FleetSession :=
  let slots := s.fleet.rotation.pairs.zipIdx.map fun (pair, i) => (s.nextTask + i, pair)
  let s := slots.foldl (fun s slot => s.spawn label (.drive slot.2 body)) s
  let o : FanOut := { label, slots }
  { s with fanOuts := s.fanOuts ++ [o] }.collectFanOuts

/-- A task, cancelled if it has a label. -/
def cancelled (label : String) (t : FleetTask) : FleetTask :=
  if t.label = label then { t with cancelled := true } else t

/-- Cancels the tasks with a label.  The flag says whether there was one. -/
def cancel (s : FleetSession) (label : String) : FleetSession × Bool :=
  let ids := (s.tasks.filter (·.label == label)).map (·.id)
  (ids.foldl wake { s with tasks := s.tasks.map (cancelled label) }, !ids.isEmpty)

/-- Lets go of an answer that is held up under a name, or closes its connection.  The flag says
whether there was one. -/
def letGo (s : FleetSession) (name : String) (answer : Bool) : FleetSession × Bool :=
  match s.held.lookup name with
  | none => (s, false)
  | some (id, result) =>
    let result := if answer then result else .error Http.Fault.broken.error
    ({ s with
      held := s.held.eraseP (·.1 == name)
      arriving := s.arriving ++ [(id, result)] }, true)

/-- Makes a fleet whose pool is filled to its least size. -/
def new (tracker : Cluster.MembershipConfig) (breakers : BreakerConfig) (pool : PoolConfig)
    (slots : List Credential.Slot) (rotation : RotationConfig) (http : HttpConfig)
    (script : Script) (readTarget : TargetReader := Target.ofAddress?) :
    Except RoutingError FleetSession :=
  match Pool.new pool with
  | .error e => .error e
  | .ok empty =>
    let fleet : Fleet := {
      http
      readTarget
      tracker := .new tracker
      registry := { config := breakers }
      pool := { pool := empty }
      rotation := .new slots rotation }
    let s : FleetSession := { fleet, script }
    let warm : FleetTask := { id := 0, label := "", work := .sweep }
    .ok { s.onSweep warm (.warm 0) with finished := [] }

/-- An operation of a session. -/
inductive Step where
  | message (m : Message)
  | sweep
  | dispatch (label : String) (request : InferenceRequest)
  | fanOut (label : String) (body : Json)
  | sweepPool (label : String)
  | script (lists : List ((String × Method) × List Reaction))
  | respond (hold : String)
  | dropHold (hold : String)
  | cancel (label : String)
  | advance (ms : Nat)
  | trip (key : String)
  | reset (key : String)
  | failCredential (f : Failure)
  | selectCredential (index : Nat)
  | shutdownPool
  | serve (method uri : String)
  | samples

/-- What an operation tells. -/
inductive Reply where
  | nothing
  | notPending
  | nodes (ids : List String)
  | flag (b : Bool)
  | selected (result : Except RoutingError Unit)
  | http (reply : HttpReply)
  | samples (lines : List String)

/-- Changes the breaker of a key, made if there is none. -/
def withBreaker (s : FleetSession) (key : String) (f : Breaker → Breaker) : FleetSession :=
  let (r, id) := s.fleet.registry.getOrCreate key none
  { s with fleet := { s.fleet with registry := r.update id f } }

/-- Replaces the rotation. -/
def setRotation (s : FleetSession) (rotation : Rotation) : FleetSession :=
  { s with fleet := { s.fleet with rotation } }

/-- Carries out one operation; the tasks it wakes have not run yet. -/
def step (s : FleetSession) : Step → FleetSession × Reply
  | .message m =>
    ({ s with fleet := { s.fleet with tracker := (s.fleet.tracker.handle s.now m).1 } }, .nothing)
  | .sweep =>
    let (tracker, _, ids) := s.fleet.tracker.sweep s.now
    ({ s with fleet := { s.fleet with tracker } }, .nodes ids)
  | .dispatch label request => (s.spawn label (.dispatch request), .nothing)
  | .fanOut label body => (s.fanOut label body, .nothing)
  | .sweepPool label => (s.spawn label .sweep, .nothing)
  | .script lists => ({ s with script := s.script.setAll lists }, .nothing)
  | .respond hold =>
    let (s, known) := s.letGo hold true
    (s, .flag known)
  | .dropHold hold =>
    let (s, known) := s.letGo hold false
    (s, .flag known)
  | .cancel label =>
    let (s, known) := s.cancel label
    (s, if known then .nothing else .notPending)
  | .advance ms => (s.advance ms, .nothing)
  | .trip key => (s.withBreaker key (·.trip s.now), .nothing)
  | .reset key => (s.withBreaker key (·.reset), .nothing)
  | .failCredential failure =>
    let (rotation, moved) := s.fleet.rotation.reportFailure s.now failure
    (s.setRotation rotation, .flag moved)
  | .selectCredential index =>
    match s.fleet.rotation.select index with
    | .ok rotation => (s.setRotation rotation, .selected (.ok ()))
    | .error e => (s, .selected (.error e))
  | .shutdownPool => ((s.onPool .shutdown).1, .nothing)
  | .serve method uri =>
    let (fleet, reply) := s.fleet.serve s.now method uri
    ({ s with fleet }, .http reply)
  | .samples => (s, .samples (Metrics.lines s.fleet.samples))

/-- The tasks that are awake run, and the ended ones are handed over with the requests made. -/
def settleStep (s : FleetSession) :
    FleetSession × List (String × FleetEnd) × List Request :=
  let s := s.settle
  let fleet := { s.fleet with registry := s.fleet.registry.fireDue s.now }
  ({ s with fleet, finished := [], requests := [] }, s.finished, s.requests)

/-- A look at every breaker, as at the end of a step. -/
def observe (s : FleetSession) : FleetSession × List BreakerReport :=
  let (registry, reports) := s.fleet.registry.reports s.now
  ({ s with fleet := { s.fleet with registry } }, reports)

end FleetSession

end InferenceRouting
