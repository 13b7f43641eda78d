import InferenceRouting.Background.Session

/-!
# The course of a job

A job is a task whose runs take no time: once after a delay, or once in every period.  It is due at
times that are settled when it is scheduled, and it runs at each of them until it is cancelled: by
its name, or with its scope, or with one that this lies in.
-/

namespace InferenceRouting.Background

/-- Whether a scope is another, or lies in it. -/
def Scope.liesIn (x y : Scope) : Bool :=
  x.path.contains y.id

/-- A job. -/
inductive Job where
  | once (delay : Nat)
  | every (period : Nat)
  deriving DecidableEq, Repr

namespace Job

/-- When a job runs. -/
def plan : Job → Plan
  | .once _ => .once
  | .every period => .every period 0

/-- The time before the first run. -/
def delay : Job → Nat
  | .once delay => delay
  | .every period => period

/-- The times at which a job is due that was scheduled at `start`. -/
def Due (start : Nat) : Job → Nat → Prop
  | .once delay, t => t = start + delay
  | .every period, t => 0 < period ∧ ∃ k, 1 ≤ k ∧ t = start + k * period

/-- The operation that schedules a job. -/
def step (label scope : String) (job : Job) : SchedulerSession.Step :=
  .schedule label scope job.plan job.delay

end Job

namespace SchedulerSession

/-- The session after some operations. -/
def run (s : SchedulerSession) (steps : List Step) : SchedulerSession :=
  steps.foldl step s

/-- Whether a scope has ended. -/
def isEnded (s : SchedulerSession) (x : Scope) : Bool :=
  s.scheduler.scopes.isEnded x

/-- Whether an operation shuts a scope down, or one that it lies in. -/
def ends (s : SchedulerSession) (x : Scope) : Step → Bool
  | .shutdown name => (s.scopes.lookup name).any x.liesIn
  | _ => false

/-- Whether some of a number of operations shuts a scope down, or one that it lies in. -/
def endsAlong (x : Scope) (s : SchedulerSession) : List Step → Bool
  | [] => false
  | op :: rest => s.ends x op || endsAlong x (s.step op) rest

/-- Whether an operation cancels the task with a number that was scheduled in a scope. -/
def cancels (s : SchedulerSession) (id : Nat) (x : Scope) : Step → Bool
  | .cancel label => s.handles.lookup label == some (some id)
  | op => s.ends x op

/-- When a task that was scheduled in a scope is cancelled for the first time. -/
def cancelledAt? (id : Nat) (x : Scope) (s : SchedulerSession) : List Step → Option Nat
  | [] => none
  | op :: rest =>
    if s.cancels id x op then some s.scheduler.now else cancelledAt? id x (s.step op) rest

end SchedulerSession

end InferenceRouting.Background
