import InferenceRouting.Cluster.Probe
import InferenceRouting.Cluster.Run
import InferenceRouting.Cluster.Selection
import InferenceRouting.Pool.Session

/-!
# A tracker in use

A session is a tracker, the time, the periodic tasks that are running, and one subscriber to the
events.  The subscriber's channel keeps the newest events that have not been read; of those that
did not fit only the number is known.
-/

namespace InferenceRouting.Cluster

/-- The number of unread events that are kept. -/
def eventCapacity : Nat := 256

/-- What a periodic task does. -/
inductive MembershipJob where
  | sweep
  | probe (nodes : List StaticNode)

/-- A periodic task: its period, when it runs next, and its place among timers. -/
structure MembershipTask where
  id : Nat
  job : MembershipJob
  period : Nat
  due : Nat
  order : Nat

/-- A tracker in use. -/
structure MembershipSession where
  tracker : Tracker
  now : Nat := 0
  script : ConnectionScript := {}
  /-- The events that have not been read, oldest first. -/
  unread : List MembershipEvent := []
  tasks : List MembershipTask := []
  /-- The tasks that `stopSweep` and `stopProber` end. -/
  sweepTask : Option Nat := none
  probeTask : Option Nat := none
  /-- Whether tasks can be started and datagrams are received. -/
  running : Bool := true
  nextTask : Nat := 0
  nextOrder : Nat := 0

namespace MembershipSession

/-- Notes published events. -/
def publish (s : MembershipSession) (events : List MembershipEvent) : MembershipSession :=
  { s with unread := s.unread ++ events }

/-- Reads the channel: how many events were lost, and those that were kept. -/
def readEvents (s : MembershipSession) : MembershipSession × Nat × List MembershipEvent :=
  let lost := s.unread.length - eventCapacity
  ({ s with unread := [] }, lost, s.unread.drop lost)

/-- Whether a static node can be connected to and passes its probe.  Every connection has a number
of its own, so only addresses matter. -/
def isAlive (s : MembershipSession) (n : StaticNode) : Bool :=
  !s.script.failConnect.contains n.baseUrl && !s.script.failProbeUrl.contains n.baseUrl

/-- Handles a message. -/
def handle (s : MembershipSession) (m : Message) : MembershipSession :=
  let (tracker, events) := s.tracker.handle s.now m
  { s with tracker }.publish events

/-- Sweeps the tracker. -/
def sweep (s : MembershipSession) : MembershipSession × List String :=
  let (tracker, events, ids) := s.tracker.sweep s.now
  ({ s with tracker }.publish events, ids)

/-- Probes static nodes. -/
def probe (s : MembershipSession) (nodes : List StaticNode) : MembershipSession × Nat :=
  let (tracker, events, alive) := s.tracker.probeRound s.now s.isAlive nodes
  ({ s with tracker }.publish events, alive)

/-- Ends a task. -/
def stopTask (s : MembershipSession) : Option Nat → MembershipSession
  | some id => { s with tasks := s.tasks.filter (·.id ≠ id) }
  | none => s

/-- Starts a task, unless tasks can no longer be started.  A task without a period never runs. -/
def startTask (s : MembershipSession) (job : MembershipJob) (period : Nat) :
    MembershipSession × Nat :=
  let task : MembershipTask :=
    { id := s.nextTask, job, period, due := s.now + period, order := s.nextOrder }
  let tasks := if s.running && period != 0 then s.tasks ++ [task] else s.tasks
  ({ s with tasks, nextTask := s.nextTask + 1, nextOrder := s.nextOrder + 1 }, task.id)

/-- Starts the periodic sweep in place of an earlier one. -/
def startSweep (s : MembershipSession) : MembershipSession :=
  let (s, id) := s.startTask .sweep s.tracker.config.heartbeatInterval
  { s.stopTask s.sweepTask with sweepTask := some id }

/-- Ends the periodic sweep. -/
def stopSweep (s : MembershipSession) : MembershipSession :=
  { s.stopTask s.sweepTask with sweepTask := none }

/-- Starts probing static nodes at every interval. -/
def startProber (s : MembershipSession) (nodes : List StaticNode) (interval : Nat) :
    MembershipSession :=
  let (s, id) := s.startTask (.probe nodes) interval
  { s with probeTask := some id }

/-- Ends the probing started last. -/
def stopProber (s : MembershipSession) : MembershipSession :=
  { s.stopTask s.probeTask with probeTask := none }

/-- Ends all tasks, and no more are started. -/
def stopTimers (s : MembershipSession) : MembershipSession :=
  { s with running := false, tasks := [] }

/-- Runs a task at its own time and sets its next one. -/
def runTask (s : MembershipSession) (t : MembershipTask) : MembershipSession :=
  let s := { s with now := t.due }
  let s := match t.job with
    | .sweep => s.sweep.1
    | .probe nodes => (s.probe nodes).1
  let next := { t with due := t.due + t.period, order := s.nextOrder }
  { s with
    tasks := s.tasks.map fun u => if u.id = t.id then next else u
    nextOrder := s.nextOrder + 1 }

/-- Whether one task runs before another: by time, then by the order in which they were set. -/
def MembershipTask.before (a b : MembershipTask) : Bool :=
  decide (a.due < b.due) || (a.due == b.due && decide (a.order ≤ b.order))

/-- The task that runs next, if that is not after `limit`. -/
def nextTask? (s : MembershipSession) (limit : Nat) : Option MembershipTask :=
  match (s.tasks.filter (·.due ≤ limit)).mergeSort MembershipTask.before with
  | t :: _ => some t
  | [] => none

/-- Moves time to `limit`, running the tasks on the way.  `fuel` bounds their runs. -/
def advanceTo : Nat → Nat → MembershipSession → MembershipSession
  | 0, limit, s => { s with now := limit }
  | fuel + 1, limit, s =>
    match s.nextTask? limit with
    | some t => advanceTo fuel limit (s.runTask t)
    | none => { s with now := limit }

/-- Lets time pass.  A task runs at most once per millisecond. -/
def advance (s : MembershipSession) (ms : Nat) : MembershipSession :=
  advanceTo (s.tasks.length * (ms + 1)) (s.now + ms) s

/-- Receives a datagram; one that is no message is ignored. -/
def receive (s : MembershipSession) (m : Option Message) : MembershipSession :=
  match m with
  | some m => if s.running then s.handle m else s
  | none => s

/-- An operation of a session. -/
inductive Step where
  /-- Something happens to the tracker now. -/
  | event (e : TrackerEvent)
  /-- A datagram comes in. -/
  | receive (m : Option Message)
  | probe (nodes : List StaticNode)
  | startSweep
  | stopSweep
  | startProber (nodes : List StaticNode) (interval : Nat)
  | stopProber
  | stopTimers
  /-- Other connections fail from now on. -/
  | rescript (script : ConnectionScript)
  | readEvents
  | advance (ms : Nat)

/-- Carries out one operation. -/
def step (s : MembershipSession) : Step → MembershipSession
  | .event e => { s with tracker := (s.tracker.step s.now e).1 }.publish (s.tracker.step s.now e).2
  | .receive m => s.receive m
  | .probe nodes => (s.probe nodes).1
  | .startSweep => s.startSweep
  | .stopSweep => s.stopSweep
  | .startProber nodes interval => s.startProber nodes interval
  | .stopProber => s.stopProber
  | .stopTimers => s.stopTimers
  | .rescript script => { s with script }
  | .readEvents => s.readEvents.1
  | .advance ms => s.advance ms

/-- The session after a sequence of operations. -/
def run (s : MembershipSession) (steps : List Step) : MembershipSession :=
  steps.foldl step s

end MembershipSession

end InferenceRouting.Cluster
