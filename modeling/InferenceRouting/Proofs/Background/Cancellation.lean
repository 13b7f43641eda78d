import InferenceRouting.Proofs.Background.Scopes

/-!
# Cancellation

A scope ends when it is shut down, or one that it lies in, and in no other way.  So a job runs at
its times until one of three things comes first: its own cancellation, the end of its scope, or the
end of one that this lies in; and what is scheduled in a scope that has ended never runs
(`SchedulerSession.runs_until_cancelled`).
-/

namespace InferenceRouting.Background.SchedulerSession

variable {s t : SchedulerSession} {x y : Scope} {id start : Nat} {job : Job} {name label : String}
  {runs : List Nat} {op : Step}

/-- The scopes of the tasks keep apart, and those that have names lie in none of them. -/
structure WellFormed (s : SchedulerSession) : Prop where
  apart : s.scheduler.Apart
  named : ∀ q ∈ s.scopes, s.scheduler.Outside q.2

theorem wellFormed_new : WellFormed {} := by
  refine ⟨⟨nofun, nofun, nofun, nofun⟩, fun q hq => ?_⟩
  obtain rfl := List.mem_singleton.mp hq
  exact ⟨⟨Nat.zero_lt_one, nofun⟩, nofun⟩

theorem WellFormed.outside (h : s.WellFormed) (hx : s.scopes.lookup name = some x) :
    s.scheduler.Outside x :=
  h.named (name, x) (Keyed.mem_of_lookup hx)

/-- A session in which the scopes of the tasks are the same, and no other scopes have names. -/
theorem WellFormed.same (h : s.WellFormed) (hnames : ∀ q ∈ t.scopes, q ∈ s.scopes)
    (hplaces : t.scheduler.places = s.scheduler.places)
    (htask : t.scheduler.nextTask = s.scheduler.nextTask)
    (hnext : s.scheduler.scopes.next ≤ t.scheduler.scopes.next)
    (hended : ∀ a ∈ t.scheduler.scopes.ended, a < t.scheduler.scopes.next) : t.WellFormed :=
  ⟨h.apart.same hplaces htask hnext hended, fun q hq => (h.named q (hnames q hq)).same hplaces hnext⟩

/-- What a session is once a scope has been found for a name: the scope that has it, or a new one
apart from all others. -/
structure Found (s : SchedulerSession) (name : String) (t : SchedulerSession) (x : Scope) :
    Prop where
  wellFormed : t.WellFormed
  outside : t.scheduler.Outside x
  keeps : ∀ y, s.scheduler.Outside y → t.scheduler.Outside y
  tasks : t.scheduler.tasks = s.scheduler.tasks
  nextTask : t.scheduler.nextTask = s.scheduler.nextTask
  now : t.scheduler.now = s.scheduler.now
  ended : t.scheduler.scopes.ended = s.scheduler.scopes.ended
  known : s.scopes.lookup name = some x ∨
    s.scopes.lookup name = none ∧ s.scheduler.scopes.next ≤ x.id

theorem WellFormed.found (h : s.WellFormed) (name : String) :
    s.Found name (s.scope name).1 (s.scope name).2 := by
  unfold scope
  cases hx : s.scopes.lookup name with
  | some x => exact ⟨h, h.outside hx, fun _ hy => hy, rfl, rfl, rfl, rfl, .inl hx⟩
  | none =>
      exact ⟨⟨h.apart.child none, fun q hq => (h.named q hq).child none⟩,
        h.apart.outside_child nofun, fun _ hy => hy.child none, rfl, rfl, rfl, rfl,
        .inr ⟨hx, Nat.le_refl _⟩⟩

theorem Found.task? (h : s.Found name t x) (id : Nat) :
    t.scheduler.task? id = s.scheduler.task? id := by
  unfold Scheduler.task?
  rw [h.tasks]

/-- Something that has been given a name is what it was given to, or had a name before. -/
theorem of_mem_named {α : Type} {value : α} {all : List (String × α)} {q : String × α}
    (h : q ∈ named name value all) : q ∈ all ∨ q = (name, value) := by
  rcases List.mem_append.mp h with hold | hnew
  · exact .inl (List.mem_filter.mp hold).1
  · exact .inr (List.mem_singleton.mp hnew)

theorem lookup_named {α : Type} (name : String) (value : α) (all : List (String × α)) :
    (named name value all).lookup name = some value := by
  unfold named
  rw [List.lookup_append, Keyed.lookup_filter_self]
  simp

/-- **Step theorem.**  The scopes keep apart. -/
theorem WellFormed.step (h : s.WellFormed) (op : Step) : (s.step op).WellFormed := by
  cases op with
  | schedule label name plan delay =>
      have hfound := h.found name
      exact ⟨(hfound.wellFormed.apart.schedule hfound.outside plan delay).settle, fun q hq =>
        ((hfound.wellFormed.named q hq).schedule _ plan delay).settle⟩
  | child label name =>
      have hfound := h.found name
      refine ⟨hfound.wellFormed.apart.child (some (s.scope name).2), fun q hq => ?_⟩
      rcases of_mem_named hq with hold | rfl
      · exact (hfound.wellFormed.named q hold).child (some (s.scope name).2)
      · exact hfound.wellFormed.apart.outside_child fun y hy => Option.some.inj hy ▸ hfound.outside
  | cancel label =>
      simp only [SchedulerSession.step]
      split
      · rename_i id _
        unfold Scheduler.cancel
        split
        · rename_i task htask
          exact ⟨(h.apart.shutdown (h.apart.opened _ (Scheduler.mem_places htask))).settle,
            fun q hq => ((h.named q hq).shutdown task.scope).settle⟩
        · exact ⟨h.apart.settle, fun q hq => (h.named q hq).settle⟩
      · exact h
  | shutdown name =>
      have hfound := h.found name
      exact ⟨(hfound.wellFormed.apart.shutdown hfound.outside.opened).settle, fun q hq =>
        ((hfound.wellFormed.named q hq).shutdown _).settle⟩
  | forget label => exact ⟨h.apart, h.named⟩
  | advance ms =>
      exact h.same (fun _ hq => hq) (s.scheduler.places_advance ms) rfl (Nat.le_refl _) h.apart.ended

theorem WellFormed.run (h : s.WellFormed) (steps : List Step) : (s.run steps).WellFormed := by
  induction steps generalizing s with
  | nil => exact h
  | cons op rest ih => exact ih (h.step op)

/-! ### Scopes -/

/-- A scope that lies in no task's own ends when it is shut down, or one that it lies in. -/
theorem WellFormed.isEnded_step (h : s.WellFormed) (hx : s.scheduler.Outside x) (op : Step) :
    (s.step op).scheduler.Outside x ∧ (s.step op).isEnded x = (s.isEnded x || s.ends x op) := by
  cases op with
  | schedule label name plan delay =>
      have hfound := h.found name
      have hsame : (s.step (.schedule label name plan delay)).isEnded x = s.isEnded x :=
        Scopes.isEnded_congr ((Scheduler.ended_schedule _ _ plan delay).trans hfound.ended) x
      exact ⟨((hfound.keeps x hx).schedule _ plan delay).settle,
        hsame.trans (Bool.or_false _).symm⟩
  | child label name =>
      have hfound := h.found name
      have hsame : (s.step (.child label name)).isEnded x = s.isEnded x :=
        Scopes.isEnded_congr hfound.ended x
      exact ⟨(hfound.keeps x hx).child (some (s.scope name).2), hsame.trans (Bool.or_false _).symm⟩
  | cancel label =>
      have hnone : s.ends x (.cancel label) = false := rfl
      simp only [SchedulerSession.step]
      rw [hnone, Bool.or_false]
      split
      · unfold Scheduler.cancel
        split
        · rename_i task htask
          have hapart : x.liesIn task.scope = false := hx.places _ (Scheduler.mem_places htask)
          refine ⟨(hx.shutdown task.scope).settle, ?_⟩
          exact (Scopes.isEnded_finish _ task.scope x).trans (by rw [hapart]; rfl)
        · exact ⟨hx.settle, rfl⟩
      · exact ⟨hx, rfl⟩
  | shutdown name =>
      have hfound := h.found name
      have hfinish : (s.step (.shutdown name)).isEnded x =
          ((s.scope name).1.scheduler.scopes.finish (s.scope name).2).isEnded x := rfl
      refine ⟨((hfound.keeps x hx).shutdown _).settle, ?_⟩
      rw [hfinish, Scopes.isEnded_finish, Scopes.isEnded_congr hfound.ended, Bool.or_comm]
      rcases hfound.known with hknown | ⟨hknown, hnew⟩
      · simp [ends, isEnded, hknown]
      · simp [ends, isEnded, hknown, hx.opened.not_liesIn hnew]
  | forget label => exact ⟨hx, (Bool.or_false _).symm⟩
  | advance ms =>
      exact ⟨hx.same (s.scheduler.places_advance ms) (Nat.le_refl _), (Bool.or_false _).symm⟩

/-- **Run theorem, scopes.**  A scope has ended when it was shut down, or one that it lies in, and
stays so. -/
theorem WellFormed.isEnded_run (h : s.WellFormed) (hx : s.scheduler.Outside x)
    (steps : List Step) : (s.run steps).isEnded x = (s.isEnded x || s.endsAlong x steps) := by
  induction steps generalizing s with
  | nil => exact (Bool.or_false _).symm
  | cons op rest ih =>
      obtain ⟨hafter, hended⟩ := h.isEnded_step hx op
      refine (ih (h.step op) hafter).trans ?_
      rw [hended, endsAlong, Bool.or_assoc]

/-- A new scope lies in the one that it is opened in and in those that this lies in, and nothing lies
in it yet. -/
theorem WellFormed.child (h : s.WellFormed) (label name : String) :
    ∃ y, (s.step (.child label name)).scopes.lookup label = some y ∧
      ∀ n z, s.scopes.lookup n = some z →
        z.liesIn y = false ∧ y.liesIn z = (s.scope name).2.liesIn z := by
  have hfound := h.found name
  refine ⟨_, lookup_named label _ _, fun n z hz => ?_⟩
  have hopened := (hfound.keeps z (h.outside hz)).opened
  exact ⟨hopened.not_liesIn (Nat.le_refl _), Scopes.liesIn_enter _ _ z hopened.id⟩

/-! ### Jobs -/

/-- A task that has been stopped does not run any more. -/
theorem WellFormed.stopped_step (h : s.WellFormed) (hs : s.scheduler.Stopped id runs) (op : Step) :
    (s.step op).scheduler.Stopped id runs := by
  have hfound : ∀ name, (s.scope name).1.scheduler.Stopped id runs := fun name =>
    hs.of_same (h.found name).ended fun _ htask => ((h.found name).task? id).trans htask
  cases op with
  | schedule label name plan delay =>
      exact ((hfound name).of_same (Scheduler.ended_schedule _ _ plan delay)
        fun task htask => Scheduler.task?_schedule htask _ plan delay).settle
  | child label name => exact (hfound name).of_same rfl fun _ htask => htask
  | cancel label =>
      simp only [SchedulerSession.step]
      split
      · unfold Scheduler.cancel
        split
        · exact (hs.shutdown _).settle
        · exact hs.settle
      · exact hs
  | shutdown name => exact ((hfound name).shutdown _).settle
  | forget label => exact hs
  | advance ms =>
      have hlater : Scheduler.Stopped { s.scheduler.settle with now := s.scheduler.now + ms } id runs :=
        hs.settle
      exact hlater.settle

/-- Where the scope of a job's own lies: where the one lies that it was scheduled in. -/
theorem Going.liesIn (h : s.scheduler.Outside y) {own : Scope} (hown : own.ancestors = x.path)
    {task : Task} (htask : s.scheduler.task? id = some task) (hscope : task.scope = own) :
    own.liesIn y = x.liesIn y := by
  have hne : y.id ≠ own.id := by
    intro heq
    have hfalse : y.liesIn task.scope = false := h.places _ (Scheduler.mem_places htask)
    rw [hscope] at hfalse
    simp [Scope.liesIn, Scope.path, heq] at hfalse
  unfold Scope.liesIn
  rw [Scope.path, hown]
  simp [hne]

/-- **Step theorem, jobs.**  A job goes on until an operation cancels it, and is stopped then with
the runs it has had. -/
theorem WellFormed.going_step (h : s.WellFormed) (hs : s.scheduler.Going id x job start)
    (op : Step) :
    (s.cancels id x op = true →
        (s.step op).scheduler.Stopped id (job.runs start s.scheduler.now)) ∧
      (s.cancels id x op = false → (s.step op).scheduler.Going id x job start) := by
  have hfound : ∀ name, (s.scope name).1.scheduler.Going id x job start := fun name =>
    hs.of_same (h.found name).now (h.found name).ended fun _ htask =>
      ((h.found name).task? id).trans htask
  cases op with
  | schedule label name plan delay =>
      have hscheduled : Scheduler.Going _ id x job start :=
        (hfound name).of_same (Scheduler.now_schedule _ (s.scope name).2 plan delay)
          (Scheduler.ended_schedule _ _ plan delay)
          fun task htask => Scheduler.task?_schedule htask _ plan delay
      exact ⟨nofun, fun _ => hscheduled.settle 0⟩
  | child label name =>
      exact ⟨nofun, fun _ => (hfound name).of_same rfl rfl fun _ htask => htask⟩
  | cancel label =>
      simp only [SchedulerSession.step, cancels]
      cases hhandle : s.handles.lookup label with
      | none => exact ⟨nofun, fun _ => hs⟩
      | some handle =>
          cases handle with
          | none => exact ⟨nofun, fun _ => hs⟩
          | some n =>
              obtain ⟨hown, hother⟩ := hs.cancel h.apart n
              refine ⟨fun hcancels => ?_, fun hcancels => ?_⟩
              · exact (hown (by simpa using hcancels)).settle
              · exact (hother (by simpa using hcancels)).settle 0
  | shutdown name =>
      have hplace : ∀ own, own.ancestors = x.path →
          s.scheduler.task? id = some (job.task own start s.scheduler.now) →
          own.liesIn (s.scope name).2 = s.ends x (.shutdown name) := by
        intro own hown htask
        rcases (h.found name).known with hknown | ⟨hknown, hnew⟩
        · rw [Going.liesIn (h.outside hknown) hown htask (Job.scope_task job own _ _)]
          simp [ends, hknown]
        · have hopened := h.apart.opened _ (Scheduler.mem_places htask)
          rw [Job.scope_task] at hopened
          rw [hopened.not_liesIn hnew]
          simp [ends, hknown]
      have hnow := (h.found name).now
      have htask := (h.found name).task? id
      refine ⟨fun hcancels => ?_, fun hcancels => ?_⟩
      · have hstopped : ((s.scope name).1.scheduler.shutdown (s.scope name).2).Stopped id
            (job.runs start s.scheduler.now) := by
          rw [← hnow]
          refine (hfound name).stopped fun own hown hown' => ?_
          rw [hnow, htask] at hown'
          exact (hplace own hown hown').trans hcancels
        exact hstopped.settle
      · have hgoing : ((s.scope name).1.scheduler.shutdown (s.scope name).2).Going id x job start := by
          refine (hfound name).shutdown fun own hown hown' => ?_
          rw [hnow, htask] at hown'
          exact (hplace own hown hown').trans hcancels
        exact hgoing.settle 0
  | forget label => exact ⟨nofun, fun _ => hs⟩
  | advance ms =>
      have hsettled : s.scheduler.settle.Going id x job start := hs.settle 0
      exact ⟨nofun, fun _ => hsettled.settle ms⟩

theorem WellFormed.stopped_run (h : s.WellFormed) (hs : s.scheduler.Stopped id runs)
    (steps : List Step) : (s.run steps).scheduler.Stopped id runs := by
  induction steps generalizing s with
  | nil => exact hs
  | cons op rest ih => exact ih (h.step op) (h.stopped_step hs op)

/-- **Run theorem, jobs.**  A job has had the runs that were due until it was cancelled, or until
now. -/
theorem WellFormed.going_run (h : s.WellFormed) (hs : s.scheduler.Going id x job start)
    (steps : List Step) :
    ∃ task till, (s.run steps).scheduler.task? id = some task ∧
      till = (s.cancelledAt? id x steps).getD (s.run steps).scheduler.now ∧ start ≤ till ∧
      task.runs = job.runs start till := by
  induction steps generalizing s with
  | nil =>
      obtain ⟨own, -, htask, -⟩ := hs.task
      exact ⟨_, _, htask, rfl, hs.begun, Job.runs_task job own start _⟩
  | cons op rest ih =>
      obtain ⟨hstops, hgoes⟩ := h.going_step hs op
      cases hcancels : s.cancels id x op with
      | true =>
          obtain ⟨task, htask, hruns, -⟩ := (h.step op).stopped_run (hstops hcancels) rest
          exact ⟨task, _, htask, by simp [cancelledAt?, hcancels], hs.begun, hruns⟩
      | false =>
          obtain ⟨task, till, htask, htill, hbegun, hruns⟩ := ih (h.step op) (hgoes hcancels)
          have hsame : s.cancelledAt? id x (op :: rest) = (s.step op).cancelledAt? id x rest := by
            simp [cancelledAt?, hcancels]
          exact ⟨task, till, htask, hsame ▸ htill, hbegun, hruns⟩

/-- A job that is scheduled in a scope that has not ended begins, under a new number. -/
theorem WellFormed.scheduled (h : s.WellFormed) (label name : String) (job : Job)
    (hx : s.isEnded (s.scope name).2 = false) :
    (s.step (job.step label name)).handles.lookup label = some (some s.scheduler.nextTask) ∧
      (s.step (job.step label name)).scheduler.Going s.scheduler.nextTask (s.scope name).2 job
        s.scheduler.now := by
  have hfound := h.found name
  have hended : (s.scope name).1.scheduler.scopes.isEnded (s.scope name).2 = false :=
    (Scopes.isEnded_congr hfound.ended _).trans hx
  obtain ⟨hid, hgoing⟩ := hfound.wellFormed.apart.going_schedule hended job
  rw [hfound.nextTask] at hid hgoing
  rw [hfound.now] at hgoing
  refine ⟨?_, hgoing⟩
  rw [← hid]
  exact lookup_named label _ _

/-- What is scheduled in a scope that has ended is no task. -/
theorem WellFormed.refused (h : s.WellFormed) (label name : String) (job : Job)
    (hx : s.isEnded (s.scope name).2 = true) :
    (s.step (job.step label name)).handles.lookup label = some none ∧
      (s.step (job.step label name)).scheduler.tasks.map Prod.fst =
        s.scheduler.tasks.map Prod.fst := by
  have hfound := h.found name
  have hended : (s.scope name).1.scheduler.scopes.isEnded (s.scope name).2 = true :=
    (Scopes.isEnded_congr hfound.ended _).trans hx
  have hrefused : (s.scope name).1.scheduler.schedule (s.scope name).2 job.plan job.delay =
      ((s.scope name).1.scheduler, none) := by
    simp only [Scheduler.schedule, hended, if_true]
  have hstep : s.step (job.step label name) =
      { (s.scope name).1 with
        scheduler := (s.scope name).1.scheduler.settle
        handles := SchedulerSession.named label none (s.scope name).1.handles } := by
    simp only [SchedulerSession.step, Job.step, hrefused]
  rw [hstep, ← Scheduler.map_fst_places, ← Scheduler.map_fst_places, Scheduler.places_settle]
  refine ⟨lookup_named label none _, ?_⟩
  unfold Scheduler.places
  rw [hfound.tasks]

/-- **Cancellation.**  Whatever was done before and whatever is done after: a job that is scheduled
in a scope that has ended is no task at all.  Any other becomes a task with a new number, which runs
exactly once at each time that it is due at until it is cancelled, or its scope is shut down, or one
that this lies in, and never after.  A scope has ended when it was shut down, or one that it lies in,
and stays so; a scope that is opened inside another lies in it and in those that this lies in, and
no scope that was there before lies in it. -/
theorem runs_until_cancelled (before : List Step) (label name : String) (job : Job)
    (after : List Step) :
    let s : SchedulerSession := run {} before
    let x := (s.scope name).2
    let t := s.step (job.step label name)
    let u := t.run after
    (s.isEnded x = true → t.handles.lookup label = some none ∧
      t.scheduler.tasks.map Prod.fst = s.scheduler.tasks.map Prod.fst) ∧
    (s.isEnded x = false → ∃ id task, t.handles.lookup label = some (some id) ∧
      id ∉ s.scheduler.tasks.map Prod.fst ∧ u.scheduler.task? id = some task ∧
      task.runs.Pairwise (· > ·) ∧ ∀ time, time ∈ task.runs ↔ job.Due s.scheduler.now time ∧
        time ≤ (t.cancelledAt? id x after).getD u.scheduler.now) ∧
    (∀ n y, s.scopes.lookup n = some y →
      u.isEnded y = (s.isEnded y || t.endsAlong y after)) ∧
    ∀ c parent, ∃ y, (s.step (.child c parent)).scopes.lookup c = some y ∧
      ∀ n z, s.scopes.lookup n = some z →
        z.liesIn y = false ∧ y.liesIn z = (s.scope parent).2.liesIn z := by
  intro s x t u
  have hs : s.WellFormed := wellFormed_new.run before
  have ht : t.WellFormed := hs.step _
  refine ⟨hs.refused label name job, fun hx => ?_, fun n y hy => ?_, hs.child⟩
  · obtain ⟨hhandle, hgoing⟩ := hs.scheduled label name job hx
    obtain ⟨task, till, htask, rfl, hbegun, hruns⟩ := ht.going_run hgoing after
    refine ⟨_, task, hhandle, fun hmem => ?_, htask, hruns ▸ job.pairwise_runs _ _, fun time => ?_⟩
    · obtain ⟨p, hp, heq⟩ := List.mem_map.mp hmem
      have hlt := hs.apart.recent _ (List.mem_map_of_mem hp)
      exact absurd heq (Nat.ne_of_lt hlt)
    · rw [hruns]
      exact job.mem_runs hbegun time
  · obtain ⟨hy', hended⟩ := hs.isEnded_step (hs.outside hy) (job.step label name)
    exact (ht.isEnded_run hy' after).trans (by rw [hended]; exact congrArg (· || _) (Bool.or_false _))

/-- A sweep every two milliseconds in a scope inside the root, from 3 on: the root is shut down at 8,
after two runs, and nothing can be scheduled inside it then. -/
theorem runs_until_cancelled_sweep :
    let s : SchedulerSession := run {} [.child "pool" "root", .advance 3]
    let t := s.step ((Job.every 2).step "sweep" "pool")
    let u := t.run [.advance 5, .shutdown "root", .advance 10]
    (∃ task, u.scheduler.task? 0 = some task ∧
      ∀ time, time ∈ task.runs ↔ (Job.every 2).Due 3 time ∧ time ≤ 8) ∧
    (u.step ((Job.once 1).step "late" "pool")).handles.lookup "late" = some none := by
  intro s t u
  have hsweep := runs_until_cancelled [.child "pool" "root", .advance 3] "sweep" "pool" (.every 2)
    [.advance 5, .shutdown "root", .advance 10]
  have hlate := runs_until_cancelled [.child "pool" "root", .advance 3,
    (Job.every 2).step "sweep" "pool", .advance 5, .shutdown "root", .advance 10] "late" "pool"
    (.once 1) []
  obtain ⟨id, task, hhandle, -, htask, -, hruns⟩ := hsweep.2.1 (by decide +kernel)
  have hid : t.handles.lookup "sweep" = some (some 0) := by decide +kernel
  obtain rfl : id = 0 := Option.some.inj (Option.some.inj (hhandle.symm.trans hid))
  exact ⟨⟨task, htask, hruns⟩, (hlate.1 (by decide +kernel)).1⟩

end InferenceRouting.Background.SchedulerSession
