import InferenceRouting.Background.Scheduler
import InferenceRouting.Json.Value

/-!
# A scheduler in use

Scopes and tasks go by names here.  The scope `root` exists from the beginning; a name that is not
known stands for a scope of its own, apart from all others.

Time passes through every deadline: what is due on the way to a later time runs at the instant for
which it is due, and not when the later time is reached.  Every task has its turn before time moves.
A task that was just scheduled has begun to wait by then, and one whose scope was ended has seen
that, so it does not run at an instant that comes after.
-/

namespace InferenceRouting.Background

/-- A scheduler, the scopes with their names, and the number of the task last scheduled under each
name, if it could be scheduled. -/
structure SchedulerSession where
  scheduler : Scheduler := { scopes := { next := 1 } }
  scopes : List (String × Scope) := [("root", ⟨0, []⟩)]
  handles : List (String × Option Nat) := []

namespace SchedulerSession

/-- An operation of a session. -/
inductive Step where
  | schedule (label scope : String) (plan : Plan) (delay : Nat)
  | child (label scope : String)
  | cancel (label : String)
  | shutdown (scope : String)
  /-- Forgets the name of a task, which goes on. -/
  | forget (label : String)
  | advance (ms : Nat)

/-- The scope with a name. -/
def scope (s : SchedulerSession) (name : String) : SchedulerSession × Scope :=
  match s.scopes.lookup name with
  | some x => (s, x)
  | none =>
    let (scheduler, x) := s.scheduler.child none
    ({ s with scheduler }, x)

/-- Gives a name to something, in place of what had it. -/
def named {α : Type} (name : String) (value : α) (all : List (String × α)) : List (String × α) :=
  all.filter (·.1 ≠ name) ++ [(name, value)]

/-- Carries out one operation, and gives every task its turn. -/
def step (s : SchedulerSession) : Step → SchedulerSession
  | .schedule label name plan delay =>
    let (s, x) := s.scope name
    let (scheduler, id) := s.scheduler.schedule x plan delay
    { s with scheduler := scheduler.settle, handles := named label id s.handles }
  | .child label name =>
    let (s, x) := s.scope name
    let (scheduler, y) := s.scheduler.child (some x)
    { s with scheduler, scopes := named label y s.scopes }
  | .cancel label =>
    match s.handles.lookup label with
    | some (some id) => { s with scheduler := (s.scheduler.cancel id).settle }
    | _ => s
  | .shutdown name =>
    let (s, x) := s.scope name
    { s with scheduler := (s.scheduler.shutdown x).settle }
  | .forget label => { s with handles := s.handles.filter (·.1 ≠ label) }
  | .advance ms => { s with scheduler := s.scheduler.advance ms }

/-- What a task shows: a count that each run raises by one and the end of a watch by a hundred,
whether it was scheduled, and whether it is finished. -/
def shown (s : SchedulerSession) : Option Nat → Nat × Bool × Bool
  | none => (0, false, true)
  | some id =>
    match s.scheduler.task? id with
    | none => (0, false, true)
    | some t =>
      (t.runs.length + (if t.phase == .released then 100 else 0), true, s.scheduler.isFinished t)

/-- What the named tasks show. -/
def tasks (s : SchedulerSession) : List (String × (Nat × Bool × Bool)) :=
  s.handles.map fun (label, id) => (label, s.shown id)

/-- Which of the named scopes have ended. -/
def ended (s : SchedulerSession) : List (String × Bool) :=
  s.scopes.map fun (name, x) => (name, s.scheduler.scopes.isEnded x)

end SchedulerSession

end InferenceRouting.Background
