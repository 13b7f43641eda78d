import InferenceRouting.Background.Interval
import InferenceRouting.Background.Scope

/-!
# Background tasks

Tasks run in scopes.  A task runs once after a delay, or at regular intervals, or watches for the
end of its scope.  Every task has a scope of its own inside the one it is scheduled in, so it can be
cancelled alone or together with everything around it; a task scheduled in a scope that has already
ended never runs.

A task keeps the times of its runs.  Tasks do not act on each other, so what a task does up to an
instant is a function of that task alone (`Task.runTo`).
-/

namespace InferenceRouting.Background

/-- When a task runs. -/
inductive Plan where
  /-- A single time. -/
  | once
  /-- At every interval; a run keeps the task busy for the time given. -/
  | every (period busy : Nat)
  /-- At once; from then on it watches for the end of its scope. -/
  | watch
  deriving DecidableEq, Repr

/-- What a task is about to do. -/
inductive Phase where
  /-- It runs at `due`, or at `free` if that is later: until then it is busy. -/
  | waiting (due free : Nat)
  /-- It watches for the end of its scope. -/
  | watching
  /-- It saw the end of its scope. -/
  | released
  /-- It has nothing left to do. -/
  | finished
  deriving DecidableEq, Repr

/-- A background task. -/
structure Task where
  scope : Scope
  plan : Plan
  phase : Phase
  /-- The times of its runs, the latest first. -/
  runs : List Nat := []
  deriving DecidableEq, Repr

namespace Task

/-- The time of the next run, if nothing prevents it. -/
def nextRun? (t : Task) : Option Nat :=
  match t.phase with
  | .waiting due free => some (max due free)
  | _ => none

/-- What a task does after a run at `now`. -/
def phaseAfter (plan : Plan) (due now : Nat) : Phase :=
  match plan with
  | .once => .finished
  | .every period busy => .waiting (Interval.next period due now) (now + busy)
  | .watch => .watching

/-- Runs a task that is waiting. -/
def run (t : Task) (now : Nat) : Task :=
  match t.phase with
  | .waiting due _ => { t with phase := phaseAfter t.plan due now, runs := now :: t.runs }
  | _ => t

/-- Lets a task go on up to `limit`.  `fuel` bounds its runs. -/
def runTo : Nat → Nat → Task → Task
  | 0, _, t => t
  | fuel + 1, limit, t =>
    match t.nextRun? with
    | some now => if now ≤ limit then runTo fuel limit (t.run now) else t
    | none => t

/-- A bound for the runs up to `limit`: the times at which a task is due are a period apart. -/
def fuelTo (t : Task) (limit : Nat) : Nat :=
  match t.phase, t.plan with
  | .waiting due _, .every period _ => (limit - due) / period + 1
  | _, _ => 1

/-- A task at `limit`, of which the flag says whether its scope has ended. -/
def settle (ended : Bool) (limit : Nat) (t : Task) : Task :=
  if ended then
    match t.phase with
    | .watching => { t with phase := .released }
    | .released => t
    | _ => { t with phase := .finished }
  else runTo (t.fuelTo limit) limit t

end Task

/-- Tasks, each with the number under which it was scheduled. -/
structure Scheduler where
  now : Nat := 0
  scopes : Scopes := {}
  tasks : List (Nat × Task) := []
  nextTask : Nat := 0
  deriving DecidableEq, Repr

namespace Scheduler

/-- Everything that can happen by now happens. -/
def settle (s : Scheduler) : Scheduler :=
  { s with tasks := s.tasks.map fun (id, t) => (id, t.settle (s.scopes.isEnded t.scope) s.now) }

/-- Opens a scope inside another, or one that lies in none. -/
def child (s : Scheduler) (parent : Option Scope) : Scheduler × Scope :=
  let (scopes, x) := s.scopes.enter parent
  ({ s with scopes }, x)

/-- Ends a scope. -/
def shutdown (s : Scheduler) (x : Scope) : Scheduler :=
  { s with scopes := s.scopes.finish x }

/-- The first phase of a task that is due after `delay`.  A task without a period never runs. -/
def firstPhase (plan : Plan) (now : Nat) (delay : Nat) : Phase :=
  match plan with
  | .every 0 _ => .finished
  | _ => .waiting (now + delay) now

/-- Schedules a task in a scope, its first run after `delay`.  Gives its number; `none` when the
scope has ended. -/
def schedule (s : Scheduler) (x : Scope) (plan : Plan) (delay : Nat) : Scheduler × Option Nat :=
  if s.scopes.isEnded x then (s, none)
  else
    let (scopes, own) := s.scopes.enter (some x)
    let t : Task := { scope := own, plan, phase := firstPhase plan s.now delay }
    ({ s with scopes, tasks := s.tasks ++ [(s.nextTask, t)], nextTask := s.nextTask + 1 },
     some s.nextTask)

/-- The task with a number. -/
def task? (s : Scheduler) (id : Nat) : Option Task :=
  s.tasks.lookup id

/-- Cancels a task. -/
def cancel (s : Scheduler) (id : Nat) : Scheduler :=
  match s.task? id with
  | some t => s.shutdown t.scope
  | none => s

/-- Whether a task has nothing left to do, or has been cancelled. -/
def isFinished (s : Scheduler) (t : Task) : Bool :=
  s.scopes.isEnded t.scope || t.phase == .finished

/-- Lets time pass, through each deadline on the way.  Every task has its turn before time moves. -/
def advance (s : Scheduler) (ms : Nat) : Scheduler :=
  { s.settle with now := s.now + ms }.settle

end Scheduler

end InferenceRouting.Background
