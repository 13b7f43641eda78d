import InferenceRouting.Proofs.Background.Jobs
import InferenceRouting.Proofs.Keyed

/-!
# Tasks in scopes

The numbers of scopes grow from the outside to the inside (`Scopes.Opened`), and every task has a
scope of its own that lies in no other task's and in which nothing lies (`Scheduler.Apart`).  This
keeps the end of one from reaching another: a job that goes on (`Going`) is stopped by the end of
its own scope or of one that it lies in, and by nothing else, and a task that has been stopped keeps
the runs it has had (`Stopped`).
-/

namespace InferenceRouting.Background

namespace Scopes

variable {s t : Scopes} {x y z : Scope}

/-- A scope that has been opened: its number is older than that of the next one, and those of the
scopes that it lies in are older than its own. -/
structure Opened (s : Scopes) (x : Scope) : Prop where
  id : x.id < s.next
  ancestors : ∀ a ∈ x.ancestors, a < x.id

/-- A scope that was opened stays so. -/
theorem Opened.mono (h : s.Opened x) (hnext : s.next ≤ t.next) : t.Opened x :=
  ⟨Nat.lt_of_lt_of_le h.id hnext, h.ancestors⟩

/-- An opened scope and all those around it have numbers that were given out. -/
theorem Opened.lt_of_mem (h : s.Opened x) {a : Nat} (ha : a ∈ x.path) : a < s.next := by
  rcases List.mem_cons.mp ha with rfl | ha
  · exact h.id
  · exact Nat.lt_trans (h.ancestors a ha) h.id

/-- An opened scope does not lie in one that is opened later. -/
theorem Opened.not_liesIn (h : s.Opened x) (hy : s.next ≤ y.id) : x.liesIn y = false := by
  unfold Scope.liesIn
  rw [List.contains_eq_any_beq, List.any_eq_false]
  intro a ha
  have := h.lt_of_mem ha
  simp only [beq_iff_eq]
  omega

/-- Where a scope lies that has just been opened. -/
theorem liesIn_enter (s : Scopes) (x y : Scope) (hy : y.id < s.next) :
    (s.enter (some x)).2.liesIn y = x.liesIn y := by
  have hne : y.id ≠ s.next := Nat.ne_of_lt hy
  simp [enter, Scope.liesIn, Scope.path, hne]

/-- The scope that is opened inside an opened one, or in none. -/
theorem opened_enter {parent : Option Scope} (h : ∀ x ∈ parent, s.Opened x) :
    (s.enter parent).1.Opened (s.enter parent).2 := by
  refine ⟨Nat.lt_succ_self s.next, fun a ha => ?_⟩
  cases parent with
  | none => cases ha
  | some x => exact (h x rfl).lt_of_mem ha

/-- Whether a scope has ended depends on which ones have been ended, and on nothing else. -/
theorem isEnded_congr (h : t.ended = s.ended) (x : Scope) : t.isEnded x = s.isEnded x := by
  unfold isEnded
  rw [h]

/-- A scope ends with each one that it lies in. -/
theorem isEnded_finish (s : Scopes) (x y : Scope) :
    (s.finish x).isEnded y = (y.liesIn x || s.isEnded y) := by
  have hpath : ∀ path : List Nat, path.any (x.id :: s.ended).contains =
      (path.contains x.id || path.any s.ended.contains) := by
    intro path
    induction path with
    | nil => rfl
    | cons a rest ih =>
        simp only [List.any_cons, List.contains_cons, ih]
        rw [Bool.beq_comm (a := a)]
        cases (x.id == a) <;> cases s.ended.contains a <;> simp
  exact hpath y.path

/-- A scope ends with the one that it is opened in. -/
theorem isEnded_enter (h : ∀ a ∈ s.ended, a < s.next) (x : Scope) :
    (s.enter (some x)).1.isEnded (s.enter (some x)).2 = s.isEnded x := by
  have hnew : s.next ∉ s.ended := fun ha => Nat.lt_irrefl _ (h _ ha)
  simp [enter, isEnded, Scope.path, hnew]

end Scopes

namespace Scheduler

variable {s t : Scheduler} {x y z own : Scope} {id n start : Nat} {job : Job} {plan : Plan}
  {delay ms : Nat} {runs : List Nat}

/-- The scopes of the tasks. -/
def places (s : Scheduler) : List (Nat × Scope) :=
  s.tasks.map fun p => (p.1, p.2.scope)

/-- An opened scope that does not lie in that of a task. -/
structure Outside (s : Scheduler) (x : Scope) : Prop where
  opened : s.scopes.Opened x
  places : ∀ p ∈ s.places, x.liesIn p.2 = false

/-- The tasks have scopes of their own, which do not lie in each other, and only opened scopes have
ended. -/
structure Apart (s : Scheduler) : Prop where
  ended : ∀ a ∈ s.scopes.ended, a < s.scopes.next
  opened : ∀ p ∈ s.places, s.scopes.Opened p.2
  recent : ∀ p ∈ s.places, p.1 < s.nextTask
  alone : ∀ p ∈ s.places, ∀ q ∈ s.places, p.1 ≠ q.1 → q.2.liesIn p.2 = false

/-- The scopes of the tasks are numbered as the tasks are. -/
theorem map_fst_places (s : Scheduler) : s.places.map Prod.fst = s.tasks.map Prod.fst := by
  simp [places]

/-- A scope that lies in none of the tasks does so as long as their scopes are the same. -/
theorem Outside.same (h : s.Outside x) (hplaces : t.places = s.places)
    (hnext : s.scopes.next ≤ t.scopes.next) : t.Outside x :=
  ⟨h.opened.mono hnext, hplaces ▸ h.places⟩

/-- Nor do the scopes of the tasks come to lie in each other. -/
theorem Apart.same (h : s.Apart) (hplaces : t.places = s.places) (htask : t.nextTask = s.nextTask)
    (hnext : s.scopes.next ≤ t.scopes.next) (hended : ∀ a ∈ t.scopes.ended, a < t.scopes.next) :
    t.Apart where
  ended := hended
  opened p hp := (h.opened p (hplaces ▸ hp)).mono hnext
  recent p hp := htask ▸ h.recent p (hplaces ▸ hp)
  alone p hp q hq := h.alone p (hplaces ▸ hp) q (hplaces ▸ hq)

/-- What the tasks do by now leaves them in their scopes. -/
theorem places_settle (s : Scheduler) : s.settle.places = s.places := by
  unfold settle places
  rw [List.map_map]
  refine List.map_congr_left fun p _ => ?_
  simp [Task.scope_settle]

theorem Outside.child (h : s.Outside x) (parent : Option Scope) : (s.child parent).1.Outside x :=
  h.same rfl (Nat.le_succ _)

/-- A scope that is opened is not that of a task. -/
theorem Apart.child (h : s.Apart) (parent : Option Scope) : (s.child parent).1.Apart :=
  h.same rfl rfl (Nat.le_succ _) fun a ha => Nat.lt_succ_of_lt (h.ended a ha)

/-- A new scope lies in no task's, as long as the one that it is opened in does not. -/
theorem Apart.outside_child (h : s.Apart) {parent : Option Scope}
    (hparent : ∀ y ∈ parent, s.Outside y) : (s.child parent).1.Outside (s.child parent).2 := by
  refine ⟨Scopes.opened_enter fun y hy => (hparent y hy).opened, fun p hp => ?_⟩
  have hlt := (h.opened p hp).id
  cases parent with
  | none =>
      have hne : p.2.id ≠ s.scopes.next := Nat.ne_of_lt hlt
      simp [Scheduler.child, Scopes.enter, Scope.liesIn, Scope.path, hne]
  | some y =>
      exact (Scopes.liesIn_enter s.scopes y p.2 hlt).trans ((hparent y rfl).places p hp)

/-- Only what was opened has ended when an opened scope is ended. -/
theorem Apart.shutdown (h : s.Apart) (hx : s.scopes.Opened x) : (s.shutdown x).Apart :=
  h.same rfl rfl (Nat.le_refl _) fun a ha => by
    rcases List.mem_cons.mp ha with rfl | ha
    · exact hx.id
    · exact h.ended a ha

theorem Outside.shutdown (h : s.Outside x) (y : Scope) : (s.shutdown y).Outside x :=
  h.same rfl (Nat.le_refl _)

theorem Apart.settle (h : s.Apart) : s.settle.Apart :=
  h.same s.places_settle rfl (Nat.le_refl _) h.ended

theorem Outside.settle (h : s.Outside x) : s.settle.Outside x :=
  h.same s.places_settle (Nat.le_refl _)

/-- Time leaves the tasks in their scopes. -/
theorem places_advance (s : Scheduler) (ms : Nat) : (s.advance ms).places = s.places :=
  (places_settle _).trans s.places_settle

/-- Where the tasks are once one has been scheduled. -/
theorem places_schedule (h : s.scopes.isEnded x = false) (plan : Plan) (delay : Nat) :
    (s.schedule x plan delay).1.places = s.places ++ [(s.nextTask, (s.scopes.enter (some x)).2)] := by
  simp [schedule, h, places, Scopes.enter]

/-- Scheduling a task ends no scope. -/
theorem ended_schedule (s : Scheduler) (x : Scope) (plan : Plan) (delay : Nat) :
    (s.schedule x plan delay).1.scopes.ended = s.scopes.ended := by
  unfold schedule
  split <;> rfl

/-- Scheduling a task takes no time. -/
theorem now_schedule (s : Scheduler) (x : Scope) (plan : Plan) (delay : Nat) :
    (s.schedule x plan delay).1.now = s.now := by
  unfold schedule
  split <;> rfl

/-- A new task keeps apart from all others. -/
theorem Apart.schedule (h : s.Apart) (hx : s.Outside x) (plan : Plan) (delay : Nat) :
    (s.schedule x plan delay).1.Apart := by
  cases hended : s.scopes.isEnded x with
  | true =>
      have hsame : (s.schedule x plan delay).1 = s := by simp [Scheduler.schedule, hended]
      exact hsame.symm ▸ h
  | false =>
      have hplaces := places_schedule hended plan delay
      have hscopes : (s.schedule x plan delay).1.scopes = (s.scopes.enter (some x)).1 := by
        simp [Scheduler.schedule, hended]
      have hnext : (s.schedule x plan delay).1.nextTask = s.nextTask + 1 := by
        simp [Scheduler.schedule, hended]
      have hown : (s.scopes.enter (some x)).1.Opened (s.scopes.enter (some x)).2 :=
        Scopes.opened_enter fun y hy => Option.some.inj hy ▸ hx.opened
      refine ⟨fun a ha => ?_, fun p hp => ?_, fun p hp => ?_, fun p hp q hq hpq => ?_⟩
      · rw [hscopes] at ha ⊢
        exact Nat.lt_succ_of_lt (h.ended a ha)
      · rw [hplaces] at hp
        rw [hscopes]
        rcases List.mem_append.mp hp with hp | hp
        · exact (h.opened p hp).mono (Nat.le_succ _)
        · rw [List.mem_singleton.mp hp]
          exact hown
      · rw [hplaces] at hp
        rw [hnext]
        rcases List.mem_append.mp hp with hp | hp
        · exact Nat.lt_succ_of_lt (h.recent p hp)
        · rw [List.mem_singleton.mp hp]
          exact Nat.lt_succ_self _
      · rw [hplaces] at hp hq
        rcases List.mem_append.mp hp with hp | hp <;> rcases List.mem_append.mp hq with hq | hq
        · exact h.alone p hp q hq hpq
        · rw [List.mem_singleton.mp hq, Scopes.liesIn_enter _ _ _ (h.opened p hp).id]
          exact hx.places p hp
        · rw [List.mem_singleton.mp hp]
          exact (h.opened q hq).not_liesIn (Nat.le_refl _)
        · rw [List.mem_singleton.mp hp, List.mem_singleton.mp hq] at hpq
          exact absurd rfl hpq

/-- A scope outside all tasks lies outside a new one, too. -/
theorem Outside.schedule (h : s.Outside y) (x : Scope) (plan : Plan) (delay : Nat) :
    (s.schedule x plan delay).1.Outside y := by
  cases hended : s.scopes.isEnded x with
  | true =>
      have hsame : (s.schedule x plan delay).1 = s := by simp [Scheduler.schedule, hended]
      exact hsame.symm ▸ h
  | false =>
      have hscopes : (s.schedule x plan delay).1.scopes = (s.scopes.enter (some x)).1 := by
        simp [Scheduler.schedule, hended]
      refine ⟨?_, fun p hp => ?_⟩
      · rw [hscopes]
        exact h.opened.mono (Nat.le_succ _)
      · rw [places_schedule hended] at hp
        rcases List.mem_append.mp hp with hp | hp
        · exact h.places p hp
        · rw [List.mem_singleton.mp hp]
          exact h.opened.not_liesIn (Nat.le_refl _)

/-! ### One task -/

/-- A task by now, by whether its scope has ended. -/
theorem task?_settle (s : Scheduler) (id : Nat) :
    s.settle.task? id =
      (s.task? id).map fun t => t.settle (s.scopes.isEnded t.scope) s.now := by
  have hmap : ∀ (f : Task → Task) (l : List (Nat × Task)),
      (l.map fun p => (p.1, f p.2)).lookup id = (l.lookup id).map f := by
    intro f l
    induction l with
    | nil => rfl
    | cons p rest ih =>
        obtain ⟨n, task⟩ := p
        simp only [List.map_cons, List.lookup_cons, ih]
        split <;> rfl
  exact hmap (fun t => t.settle (s.scopes.isEnded t.scope) s.now) s.tasks

/-- A task that is there is not replaced by a new one. -/
theorem task?_schedule {task : Task} (h : s.task? id = some task) (x : Scope) (plan : Plan)
    (delay : Nat) : (s.schedule x plan delay).1.task? id = some task := by
  unfold schedule
  split
  · exact h
  · unfold task? at h ⊢
    simp only [List.lookup_append, h, Option.some_or]

/-- The scope of a task is among those of the tasks. -/
theorem mem_places {task : Task} (h : s.task? id = some task) : (id, task.scope) ∈ s.places :=
  List.mem_map.mpr ⟨(id, task), Keyed.mem_of_lookup h, rfl⟩

/-- A job that was scheduled in a scope at `start` goes on. -/
structure Going (s : Scheduler) (id : Nat) (x : Scope) (job : Job) (start : Nat) : Prop where
  begun : start ≤ s.now
  task : ∃ own, own.ancestors = x.path ∧ s.task? id = some (job.task own start s.now) ∧
    s.scopes.isEnded own = false

/-- A task has been cancelled after some runs. -/
def Stopped (s : Scheduler) (id : Nat) (runs : List Nat) : Prop :=
  ∃ task, s.task? id = some task ∧ task.runs = runs ∧ s.scopes.isEnded task.scope = true

/-- A job that is scheduled in a scope that has not ended begins at once. -/
theorem Apart.going_schedule (h : s.Apart) (hx : s.scopes.isEnded x = false) (job : Job) :
    (s.schedule x job.plan job.delay).2 = some s.nextTask ∧
      (s.schedule x job.plan job.delay).1.settle.Going s.nextTask x job s.now := by
  let own := (s.scopes.enter (some x)).2
  let first : Task :=
    { scope := own, plan := job.plan, phase := firstPhase job.plan s.now job.delay }
  have hscheduled : s.schedule x job.plan job.delay =
      ({ s with
        scopes := (s.scopes.enter (some x)).1
        tasks := s.tasks ++ [(s.nextTask, first)]
        nextTask := s.nextTask + 1 }, some s.nextTask) := by
    simp [Scheduler.schedule, hx, own, first]
  have hfresh : s.tasks.lookup s.nextTask = none := by
    refine List.lookup_eq_none_iff.mpr fun p hp => ?_
    have hlt := h.recent _ (List.mem_map_of_mem hp)
    exact bne_iff_ne.mpr (Nat.ne_of_gt hlt)
  have hended : (s.scopes.enter (some x)).1.isEnded first.scope = false :=
    (Scopes.isEnded_enter h.ended x).trans hx
  rw [hscheduled]
  refine ⟨rfl, Nat.le_refl _, own, rfl, ?_, hended⟩
  rw [task?_settle]
  unfold task?
  simp only [List.lookup_append, hfresh, Option.none_or, List.lookup_cons_self, Option.map_some,
    hended]
  exact congrArg some (job.task_start own s.now)

namespace Going

/-- A job that goes on does what is due when time has passed. -/
theorem settle (h : s.Going id x job start) (ms : Nat) :
    Going { s with now := s.now + ms }.settle id x job start := by
  obtain ⟨own, hown, htask, hended⟩ := h.task
  refine ⟨Nat.le_trans h.begun (Nat.le_add_right _ _), own, hown, ?_, hended⟩
  rw [task?_settle]
  change (s.task? id).map _ = _
  rw [htask]
  simp only [Option.map_some, Job.scope_task, hended]
  rw [Job.settle_task job own h.begun (Nat.le_add_right _ _)]
  rfl

/-- A job goes on when nothing is done to its task. -/
theorem of_same (h : s.Going id x job start) (hnow : t.now = s.now)
    (hended : t.scopes.ended = s.scopes.ended)
    (htask : ∀ task, s.task? id = some task → t.task? id = some task) :
    t.Going id x job start := by
  obtain ⟨own, hown, hfound, hgoing⟩ := h.task
  exact ⟨hnow ▸ h.begun, own, hown, hnow ▸ htask _ hfound,
    (Scopes.isEnded_congr hended own).trans hgoing⟩

/-- The end of a scope that the job does not lie in. -/
theorem shutdown (h : s.Going id x job start)
    (hy : ∀ own, own.ancestors = x.path → s.task? id = some (job.task own start s.now) →
      own.liesIn y = false) : (s.shutdown y).Going id x job start := by
  obtain ⟨own, hown, htask, hended⟩ := h.task
  refine ⟨h.begun, own, hown, htask, ?_⟩
  rw [Scheduler.shutdown, Scopes.isEnded_finish, hended, hy own hown htask]
  rfl

/-- The end of a scope that the job lies in. -/
theorem stopped (h : s.Going id x job start)
    (hy : ∀ own, own.ancestors = x.path → s.task? id = some (job.task own start s.now) →
      own.liesIn y = true) : (s.shutdown y).Stopped id (job.runs start s.now) := by
  obtain ⟨own, hown, htask, -⟩ := h.task
  refine ⟨_, htask, Job.runs_task job own start s.now, ?_⟩
  rw [Job.scope_task, Scheduler.shutdown, Scopes.isEnded_finish, hy own hown htask]
  rfl

/-- The job is cancelled itself, or another one is. -/
theorem cancel (h : s.Going id x job start) (hs : s.Apart) (n : Nat) :
    (n = id → (s.cancel n).Stopped id (job.runs start s.now)) ∧
      (n ≠ id → (s.cancel n).Going id x job start) := by
  unfold Scheduler.cancel
  refine ⟨fun hn => ?_, fun hn => ?_⟩
  · subst hn
    obtain ⟨own, -, htask, -⟩ := h.task
    simp only [htask]
    refine h.stopped fun own' _ htask' => ?_
    rw [Option.some.inj (htask.symm.trans htask'), Job.scope_task]
    simp [Scope.liesIn, Scope.path]
  · cases htask : s.task? n with
    | none => exact h
    | some other =>
        refine h.shutdown fun own _ hown => ?_
        have hplace := mem_places hown
        rw [Job.scope_task] at hplace
        exact hs.alone _ (mem_places htask) _ hplace hn

end Going

namespace Stopped

/-- A task that was cancelled does nothing by now. -/
theorem settle (h : s.Stopped id runs) : s.settle.Stopped id runs := by
  obtain ⟨task, htask, hruns, hended⟩ := h
  refine ⟨task.settle true s.now, ?_, (Task.runs_settle_ended s.now task).trans hruns, ?_⟩
  · rw [task?_settle, htask, Option.map_some, hended]
  · rw [Task.scope_settle]
    exact hended

/-- It stays cancelled whatever else ends. -/
theorem shutdown (h : s.Stopped id runs) (y : Scope) : (s.shutdown y).Stopped id runs := by
  obtain ⟨task, htask, hruns, hended⟩ := h
  refine ⟨task, htask, hruns, ?_⟩
  rw [Scheduler.shutdown, Scopes.isEnded_finish, hended, Bool.or_true]

/-- A task stays cancelled when nothing is done to it. -/
theorem of_same (h : s.Stopped id runs) (hended : t.scopes.ended = s.scopes.ended)
    (htask : ∀ task, s.task? id = some task → t.task? id = some task) : t.Stopped id runs := by
  obtain ⟨task, hfound, hruns, hstopped⟩ := h
  exact ⟨task, htask task hfound, hruns,
    (Scopes.isEnded_congr hended task.scope).trans hstopped⟩

end Stopped

end Scheduler

end InferenceRouting.Background
