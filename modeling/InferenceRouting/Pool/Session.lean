import InferenceRouting.Pool.Run
import InferenceRouting.Background.Interval

/-!
# A pool in use

A session runs a pool against connections that behave by a script: which addresses cannot be
connected to, which connections fail their probe, and whether connecting or probing is held up
until it is let go.

Acquisitions, calls and sweeps run as tasks on one thread.  A task runs until it has to wait; a
task that is woken takes its place at the end of `ready`.  Time moves from one deadline to the
next, and each timer rings at its own deadline, those of one instant in the order in which they
were set.
-/

namespace InferenceRouting

/-- A connection of a script: its number and its address. -/
structure ScriptedConnection where
  serial : Nat
  baseUrl : String
  deriving DecidableEq, Repr

/-- How connections behave. -/
structure ConnectionScript where
  failConnect : List String := []
  failProbe : List Nat := []
  failProbeUrl : List String := []
  holdConnect : Bool := false
  holdProbe : Bool := false
  deriving DecidableEq, Repr

/-- Changes to a script; what is absent stays. -/
structure ScriptChange where
  failConnect : Option (List String) := none
  failProbe : Option (List Nat) := none
  failProbeUrl : Option (List String) := none
  holdConnect : Option Bool := none
  holdProbe : Option Bool := none

namespace ConnectionScript

/-- The script with some parts replaced. -/
def change (s : ConnectionScript) (c : ScriptChange) : ConnectionScript where
  failConnect := c.failConnect.getD s.failConnect
  failProbe := c.failProbe.getD s.failProbe
  failProbeUrl := c.failProbeUrl.getD s.failProbeUrl
  holdConnect := c.holdConnect.getD s.holdConnect
  holdProbe := c.holdProbe.getD s.holdProbe

/-- Whether a connection passes its probe. -/
def isAlive (s : ConnectionScript) (c : ScriptedConnection) : Bool :=
  !s.failProbe.contains c.serial && !s.failProbeUrl.contains c.baseUrl

end ConnectionScript

/-- What a task does. -/
inductive PoolJob where
  /-- Acquires a connection and keeps it. -/
  | acquire (baseUrl : Option String)
  /-- Acquires a connection, makes a call with the given outcome, and gives it back. -/
  | call (baseUrl : String) (outcome : Except RoutingError Json)
  /-- Sweeps the pool once. -/
  | sweep
  /-- Sweeps the pool at every interval. -/
  | periodic

/-- What a task waits for. -/
inductive PoolWait where
  /-- Its first turn. -/
  | turn
  /-- Its turn in the pool's queue, until a deadline. -/
  | queue (deadline : Nat) (order : Nat)
  /-- A held-up connect for an acquisition. -/
  | connect (baseUrl : String)
  /-- Held-up probes. -/
  | probes (candidates : List (Lease ScriptedConnection))
  /-- A held-up connect for a sweep. -/
  | fill (baseUrl : String)
  /-- The next interval. -/
  | interval (due : Nat) (order : Nat)

/-- A task; its number is also the caller or the sweep it stands for. -/
structure PoolTask where
  id : Nat
  label : String
  job : PoolJob
  wait : PoolWait := .turn
  /-- The next tick of a periodic sweep. -/
  due : Nat := 0
  cancelled : Bool := false

/-- The deadline a task waits for, with its place in the order. -/
def PoolTask.timer? (t : PoolTask) : Option (Nat × Nat × Nat) :=
  match t.wait with
  | .queue deadline n => some (deadline, n, t.id)
  | .interval due n => some (due, n, t.id)
  | _ => none

/-- How a task ended. -/
inductive PoolEnd where
  | held (lease : Lease ScriptedConnection)
  | called (value : Json) (lease : Lease ScriptedConnection)
  | failed (error : RoutingError)
  | swept
  | cancelled

/-- A pool in use. -/
structure PoolSession where
  run : PoolRun ScriptedConnection
  script : ConnectionScript
  now : Nat := 0
  connects : Nat := 0
  probes : Nat := 0
  tasks : List PoolTask := []
  ready : List Nat := []
  /-- The tasks held up, in the order in which they began to wait. -/
  gate : List Nat := []
  /-- The leases kept under a label, by the task that acquired them. -/
  held : List (String × Nat) := []
  finished : List (String × PoolEnd) := []
  nextTask : Nat := 0
  nextOrder : Nat := 0

namespace PoolSession

/-- The task with a number. -/
def task? (s : PoolSession) (id : Nat) : Option PoolTask :=
  s.tasks.find? (·.id == id)

/-- Replaces a task. -/
def setTask (s : PoolSession) (t : PoolTask) : PoolSession :=
  { s with tasks := s.tasks.map fun u => if u.id = t.id then t else u }

/-- Wakes a task, unless it is awake. -/
def wake (s : PoolSession) (id : Nat) : PoolSession :=
  if s.ready.contains id then s else { s with ready := s.ready ++ [id] }

/-- Wakes the callers that were given something, in the order of giving. -/
def wakeCallers (s : PoolSession) : PoolSession :=
  s.run.pool.inbox.foldl (fun s d =>
    match s.run.acquisitions.find? (·.phase == .queued d.1) with
    | some a => s.wake a.caller
    | none => s) s

/-- The effect of an event on the pool. -/
def apply (s : PoolSession) (e : PoolEvent ScriptedConnection) :
    PoolSession × PoolOutcome ScriptedConnection :=
  let (run, outcome) := s.run.step s.now e
  ({ s with run }.wakeCallers, outcome)

/-- Ends a task. -/
def finish (s : PoolSession) (t : PoolTask) (e : PoolEnd) : PoolSession :=
  { s with
    tasks := s.tasks.filter (·.id ≠ t.id)
    finished := s.finished ++ [(t.label, e)] }

/-- A place in the order in which timers were set. -/
def order (s : PoolSession) : PoolSession × Nat :=
  ({ s with nextOrder := s.nextOrder + 1 }, s.nextOrder)

/-- Connects by the script. -/
def connect (s : PoolSession) (baseUrl : String) :
    PoolSession × Except RoutingError ScriptedConnection :=
  if s.script.failConnect.contains baseUrl then
    (s, .error (.callFailed none "connection refused"))
  else ({ s with connects := s.connects + 1 }, .ok ⟨s.connects, baseUrl⟩)

/-- Makes a task wait. -/
def pause (s : PoolSession) (t : PoolTask) (w : PoolWait) : PoolSession :=
  s.setTask { t with wait := w }

/-- Makes a task wait until it is let go. -/
def holdUp (s : PoolSession) (t : PoolTask) (w : PoolWait) : PoolSession :=
  { s.pause t w with gate := s.gate ++ [t.id] }

/-- Gives a task's connection back. -/
def giveBack (s : PoolSession) (caller : Nat) : PoolSession :=
  (s.apply (.release caller)).1

/-- Keeps a lease under a label, giving back one kept there before. -/
def keep (s : PoolSession) (label : String) (caller : Nat) : PoolSession :=
  let s := match s.held.lookup label with
    | some old => s.giveBack old
    | none => s
  { s with held := (label, caller) :: s.held.filter (·.1 ≠ label) }

/-- Ends an acquisition's task with its lease. -/
def granted (s : PoolSession) (t : PoolTask) (l : Lease ScriptedConnection) : PoolSession :=
  match t.job with
  | .call _ (.ok v) => (s.giveBack t.id).finish t (.called v l)
  | .call _ (.error e) => (s.giveBack t.id).finish t (.failed e)
  | _ => (s.keep t.label t.id).finish t (.held l)

/-- Goes on after an event of an acquisition. -/
def continueAcquire (s : PoolSession) (t : PoolTask) :
    PoolOutcome ScriptedConnection → PoolSession
  | .granted l => s.granted t l
  | .refused e => s.finish t (.failed e)
  | .queued =>
    let limit := s.run.pool.config.acquireTimeout
    if limit = 0 then
      match s.apply (.expire t.id) with
      | (s, .refused e) => s.finish t (.failed e)
      | (s, _) => s
    else
      let (s, n) := s.order
      s.pause t (.queue (s.now + limit) n)
  | _ => s

/-- Opens a connection for an acquisition. -/
def openFor (s : PoolSession) (t : PoolTask) (baseUrl : String) : PoolSession :=
  let (s, result) := s.connect baseUrl
  let (s, outcome) := s.apply (.opened t.id result)
  s.continueAcquire t outcome

/-- Goes on after an event of an acquisition that may have to open a connection. -/
def afterAcquire (s : PoolSession) (t : PoolTask) (o : PoolOutcome ScriptedConnection) :
    PoolSession :=
  match o with
  | .open url => if s.script.holdConnect then s.holdUp t (.connect url) else s.openFor t url
  | o => s.continueAcquire t o

/-- Probes connections by the script. -/
def probeResults (s : PoolSession) (candidates : List (Lease ScriptedConnection)) :
    List (Nat × Bool) :=
  candidates.map fun l => (l.id, s.script.isAlive l.connection)

/-- Goes on with a sweep until it has to wait.  `fuel` bounds its steps. -/
def continueSweep : Nat → PoolSession → PoolTask → PoolOutcome ScriptedConnection →
    PoolSession × Bool
  | 0, s, _, _ => (s, true)
  | fuel + 1, s, t, .probe candidates =>
    let s := { s with probes := s.probes + candidates.length }
    if s.script.holdProbe && !candidates.isEmpty then (s.holdUp t (.probes candidates), false)
    else
      let (s, o) := s.apply (.probed t.id (s.probeResults candidates))
      continueSweep fuel s t o
  | fuel + 1, s, t, .refill =>
    let (s, o) := s.apply (.refill t.id)
    continueSweep fuel s t o
  | fuel + 1, s, t, .fill url =>
    if s.script.holdConnect then (s.holdUp t (.fill url), false)
    else
      let (s, result) := s.connect url
      let (s, o) := s.apply (.warmed t.id result)
      continueSweep fuel s t o
  | _ + 1, s, _, _ => (s, true)

/-- The connections a sweep opens without waiting, with a look at the size after each, and the
steps around them. -/
def sweepFuel (s : PoolSession) : Nat :=
  2 * s.run.pool.config.maxSize + 4

/-- Lets a periodic sweep wait for its next tick, or take it at once when it is due.  `fuel` bounds
the ticks taken at one instant. -/
def awaitTick : Nat → PoolSession → PoolTask → PoolSession
  | 0, s, _ => s
  | fuel + 1, s, t =>
    if t.cancelled then { s with tasks := s.tasks.filter (·.id ≠ t.id) }
    else if t.due ≤ s.now then
      let t := { t with due := Interval.next s.run.pool.config.healthInterval t.due s.now }
      let s := s.setTask t
      let (s, o) := s.apply (.sweep t.id)
      match continueSweep s.sweepFuel s t o with
      | (s, false) => s
      | (s, true) => awaitTick fuel s t
    else
      let (s, n) := s.order
      s.pause t (.interval t.due n)

/-- The ticks a periodic sweep may take at one instant: one that is late by five milliseconds or
less leaves the next one at its place. -/
def tickFuel : Nat := 8

/-- Runs a sweep after an event. -/
def afterSweep (s : PoolSession) (t : PoolTask) (o : PoolOutcome ScriptedConnection) :
    PoolSession :=
  match continueSweep s.sweepFuel s t o with
  | (s, false) => s
  | (s, true) =>
    match t.job with
    | .periodic => awaitTick tickFuel s t
    | _ => s.finish t .swept

/-- Drops a task that was cancelled: what it had reserved or was given goes on. -/
def dropTask (s : PoolSession) (t : PoolTask) : PoolSession :=
  let s := match t.job with
    | .acquire _ | .call .. => (s.apply (.abandon t.id)).1
    | .sweep | .periodic => (s.apply (.abandonSweep t.id)).1
  { s with gate := s.gate.filter (· ≠ t.id) }.finish t .cancelled

/-- Gives a task its turn. -/
def runTask (s : PoolSession) (t : PoolTask) : PoolSession :=
  match t.job, t.wait with
  | .acquire url, .turn =>
    let (s, o) := s.apply (.acquire t.id url)
    s.afterAcquire t o
  | .call url _, .turn =>
    let (s, o) := s.apply (.acquire t.id (some url))
    s.afterAcquire t o
  | .sweep, .turn =>
    let (s, o) := s.apply (.sweep t.id)
    s.afterSweep t o
  | .periodic, .turn => awaitTick tickFuel s t
  | _, .queue deadline _ =>
    let (s, o) := s.apply (if deadline ≤ s.now then .expire t.id else .collect t.id)
    s.afterAcquire t o
  | _, .connect url => s.openFor t url
  | _, .probes candidates =>
    let (s, o) := s.apply (.probed t.id (s.probeResults candidates))
    s.afterSweep t o
  | _, .fill url =>
    let (s, result) := s.connect url
    let (s, o) := s.apply (.warmed t.id result)
    s.afterSweep t o
  | _, .interval .. => awaitTick tickFuel s t

/-- Gives the task with a number its turn.  A cancelled periodic sweep ends when it next waits. -/
def runId (s : PoolSession) (id : Nat) : PoolSession :=
  match s.task? id with
  | none => s
  | some t =>
    match t.cancelled, t.job with
    | true, .periodic => s.runTask t
    | true, _ => s.dropTask t
    | false, _ => s.runTask t

/-- Runs tasks until all wait.  `fuel` bounds the turns. -/
def drain : Nat → PoolSession → PoolSession
  | 0, s => s
  | fuel + 1, s =>
    match s.ready with
    | [] => s
    | id :: rest => drain fuel ({ s with ready := rest }.runId id)

/-- The turns that tasks can take at one instant: a task begins, is given something, is let go and
is dropped at most once each. -/
def settle (s : PoolSession) : PoolSession :=
  drain (4 * (s.tasks.length + s.ready.length) + 4) s

/-- The earliest deadline not after `limit`. -/
def nextDeadline? (s : PoolSession) (limit : Nat) : Option Nat :=
  ((s.tasks.filterMap PoolTask.timer?).map (·.1)).min?.filter (· ≤ limit)

/-- Rings the timers of an instant in the order in which they were set. -/
def ring (s : PoolSession) (t : Nat) : PoolSession :=
  let due := (s.tasks.filterMap PoolTask.timer?).filter (·.1 ≤ t)
  let ordered := due.mergeSort fun a b => decide (a.2.1 ≤ b.2.1)
  ordered.foldl (fun s timer => s.wake timer.2.2) { s with now := t }

/-- Moves time to `limit`, each timer ringing on the way.  `fuel` bounds the instants. -/
def advanceTo : Nat → Nat → PoolSession → PoolSession
  | 0, limit, s => { s with now := limit }
  | fuel + 1, limit, s =>
    match s.nextDeadline? limit with
    | some t => advanceTo fuel limit (s.ring t).settle
    | none => { s with now := limit }

/-- Lets time pass.  Every task has one deadline, and a periodic one a new one per interval. -/
def advance (s : PoolSession) (ms : Nat) : PoolSession :=
  advanceTo (2 * s.tasks.length + ms / max 1 s.run.pool.config.healthInterval * 2 + 4)
    (s.now + ms) s

/-- Begins a task. -/
def spawn (s : PoolSession) (label : String) (job : PoolJob) (due : Nat := 0) : PoolSession :=
  let t : PoolTask := { id := s.nextTask, label, job, due }
  { s with tasks := s.tasks ++ [t], nextTask := s.nextTask + 1 }.wake t.id

/-- Stops the periodic sweep.  One that waits for its next tick wakes to end; one that is sweeping
ends afterwards. -/
def stopPeriodic (s : PoolSession) : PoolSession :=
  s.tasks.foldl (fun s t =>
    match t.job with
    | .periodic =>
      let s := s.setTask { t with cancelled := true }
      match t.wait with
      | .interval .. => s.wake t.id
      | _ => s
    | _ => s) s

/-- Lets go of everything held up, in the order in which it began to wait. -/
def letGo (s : PoolSession) : PoolSession :=
  let s := { s with script := { s.script with holdConnect := false, holdProbe := false } }
  s.gate.foldl (fun s id => s.wake id) { s with gate := [] }

/-- Makes a pool, fills it to its least size, and starts the periodic sweep. -/
def new (config : PoolConfig) (script : ConnectionScript) : Except RoutingError PoolSession :=
  match Pool.new config with
  | .error e => .error e
  | .ok pool =>
    let s : PoolSession := { run := { pool }, script, nextTask := 1 }
    let (s, o) := s.apply (.warm 0)
    let (s, _) := continueSweep s.sweepFuel s { id := 0, label := "", job := .sweep } o
    .ok (s.spawn "" .periodic (s.now + config.healthInterval)).settle

/-- An operation of a session. -/
inductive Step where
  | acquire (label : String) (baseUrl : Option String)
  | call (label baseUrl : String) (outcome : Except RoutingError Json)
  | sweep (label : String)
  | release (label : String)
  | markUnhealthy (label : String)
  | cancel (label : String)
  | change (c : ScriptChange)
  | letGo
  | advance (ms : Nat)
  | shutdown
  | stopTimers
  | isClosed
  | text
  | config
  | lease (label : String)
  | samples

/-- What an operation tells. -/
inductive Reply where
  | nothing
  | notHeld
  | notPending
  | flag (b : Bool)
  | text (s : String)
  | config (c : PoolConfig)
  | lease (l : Lease ScriptedConnection)
  | samples (lines : List String)

/-- Changes what is held under a label. -/
def onHeld (s : PoolSession) (label : String) (f : Nat → PoolSession) : PoolSession × Reply :=
  match s.held.lookup label with
  | some caller => (f caller, .nothing)
  | none => (s, .notHeld)

/-- Carries out one operation; the tasks it wakes have not run yet. -/
def step (s : PoolSession) : Step → PoolSession × Reply
  | .acquire label url => (s.spawn label (.acquire url), .nothing)
  | .call label url outcome => (s.spawn label (.call url outcome), .nothing)
  | .sweep label => (s.spawn label .sweep, .nothing)
  | .release label => s.onHeld label fun caller =>
      { s with held := s.held.filter (·.1 ≠ label) }.giveBack caller
  | .markUnhealthy label => s.onHeld label fun caller => (s.apply (.flag caller)).1
  | .cancel label =>
    match s.tasks.find? (fun t => t.label == label && t.id != 1) with
    | some t => ((s.setTask { t with cancelled := true }).wake t.id, .nothing)
    | none => (s, .notPending)
  | .change c => ({ s with script := s.script.change c }, .nothing)
  | .letGo => (s.letGo, .nothing)
  | .advance ms => (s.settle.advance ms, .nothing)
  | .shutdown => (s.stopPeriodic.apply .shutdown |>.1, .nothing)
  | .stopTimers => (s.stopPeriodic, .nothing)
  | .isClosed => (s, .flag s.run.pool.closed)
  | .text => (s, .text (s.run.pool.stats s.now).text)
  | .config => (s, .config s.run.pool.config)
  | .lease label => (s, match s.held.lookup label >>= s.run.lease? with
      | some l => .lease l
      | none => .notHeld)
  | .samples => (s, .samples (Metrics.lines s.run.pool.samples))

/-- The tasks that are awake run, and the ended ones are handed over. -/
def settleStep (s : PoolSession) : PoolSession × List (String × PoolEnd) :=
  let s := s.settle
  ({ s with finished := [] }, s.finished)

end PoolSession

end InferenceRouting
