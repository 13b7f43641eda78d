import InferenceRouting.Cluster.Session
import InferenceRouting.Proofs.Keyed

/-!
# The order of ticks

While time passes, the periodic tasks of a session run one after the other, the one with the
earliest time first, and each at its own time.  Time never stands behind a task that is due: a task
runs at most once per millisecond, so the runs that `advance` allows for are enough (`load` bounds
them), and when it ends every task lies ahead.

`advance_induction` is the way to reason about the passing of time: what every single run keeps is
kept by them all.
-/

namespace InferenceRouting.Cluster.MembershipSession

variable {s : MembershipSession} {t : MembershipTask} {limit : Nat}

/-! ## Which task is next -/

/-- No task runs before `time`. -/
def DueFrom (s : MembershipSession) (time : Nat) : Prop :=
  ∀ t ∈ s.tasks, time ≤ t.due

/-- Tasks are compared by their times, then by the order in which they were set. -/
theorem before_iff (a b : MembershipTask) :
    MembershipTask.before a b = true ↔ a.due < b.due ∨ a.due = b.due ∧ a.order ≤ b.order := by
  simp only [MembershipTask.before, Bool.or_eq_true, Bool.and_eq_true, decide_eq_true_eq,
    beq_iff_eq]

/-- In a sorted list no task is due before an earlier one. -/
theorem pairwise_before (tasks : List MembershipTask) :
    (tasks.mergeSort MembershipTask.before).Pairwise fun a b => a.due ≤ b.due := by
  have htrans : ∀ a b c, MembershipTask.before a b = true → MembershipTask.before b c = true →
      MembershipTask.before a c = true := by
    intro a b c hab hbc
    rw [before_iff] at hab hbc ⊢
    omega
  have htotal : ∀ a b, (MembershipTask.before a b || MembershipTask.before b a) = true := by
    intro a b
    rw [Bool.or_eq_true, before_iff, before_iff]
    omega
  refine (List.pairwise_mergeSort htrans htotal tasks).imp fun {a b} hab => ?_
  rw [before_iff] at hab
  omega

/-- The next task is due before all others. -/
theorem of_nextTask? (h : s.nextTask? limit = some t) :
    t ∈ s.tasks ∧ t.due ≤ limit ∧ s.DueFrom t.due := by
  unfold nextTask? at h
  have hsorted := pairwise_before (s.tasks.filter (·.due ≤ limit))
  have hperm := List.mergeSort_perm (s.tasks.filter (·.due ≤ limit)) MembershipTask.before
  cases hlist : (s.tasks.filter (·.due ≤ limit)).mergeSort MembershipTask.before with
  | nil => simp [hlist] at h
  | cons first rest =>
      rw [hlist] at h hsorted hperm
      obtain rfl : first = t := by simpa using h
      have hfirst := hperm.mem_iff.mp List.mem_cons_self
      simp only [List.mem_filter, decide_eq_true_eq] at hfirst
      refine ⟨hfirst.1, hfirst.2, fun u hu => ?_⟩
      by_cases hlate : u.due ≤ limit
      · have hin : u ∈ first :: rest := hperm.mem_iff.mpr (by simp [hu, hlate])
        rcases List.mem_cons.mp hin with rfl | hrest
        · exact Nat.le_refl _
        · exact (List.pairwise_cons.mp hsorted).1 u hrest
      · omega

/-- With no next task, all tasks lie ahead. -/
theorem of_nextTask?_eq_none (h : s.nextTask? limit = none) : s.DueFrom (limit + 1) := by
  unfold nextTask? at h
  have hperm := List.mergeSort_perm (s.tasks.filter (·.due ≤ limit)) MembershipTask.before
  cases hlist : (s.tasks.filter (·.due ≤ limit)).mergeSort MembershipTask.before with
  | cons first rest => simp [hlist] at h
  | nil =>
      rw [hlist] at hperm
      intro u hu
      have hnone := List.filter_eq_nil_iff.mp (List.nil_perm.mp hperm) u hu
      have hlate : limit < u.due := by simpa using hnone
      exact hlate

/-! ## One run -/

/-- The task after a run of it. -/
def nextRun (s : MembershipSession) (t : MembershipTask) : MembershipTask :=
  { t with due := t.due + t.period, order := s.nextOrder }

/-- A run sets the task to its next time, and leaves the others. -/
theorem tasks_runTask (s : MembershipSession) (t : MembershipTask) :
    (s.runTask t).tasks = s.tasks.map fun u => if u.id = t.id then s.nextRun t else u := by
  obtain ⟨id, job, period, due, order⟩ := t
  cases job <;> rfl

/-- A task runs at its own time. -/
@[simp] theorem now_runTask (s : MembershipSession) (t : MembershipTask) :
    (s.runTask t).now = t.due := by
  obtain ⟨id, job, period, due, order⟩ := t
  cases job <;> rfl

/-- No id is given out by a run. -/
@[simp] theorem nextTask_runTask (s : MembershipSession) (t : MembershipTask) :
    (s.runTask t).nextTask = s.nextTask := by
  obtain ⟨id, job, period, due, order⟩ := t
  cases job <;> rfl

@[simp] theorem sweepTask_runTask (s : MembershipSession) (t : MembershipTask) :
    (s.runTask t).sweepTask = s.sweepTask := by
  obtain ⟨id, job, period, due, order⟩ := t
  cases job <;> rfl

@[simp] theorem probeTask_runTask (s : MembershipSession) (t : MembershipTask) :
    (s.runTask t).probeTask = s.probeTask := by
  obtain ⟨id, job, period, due, order⟩ := t
  cases job <;> rfl

/-! ## Tasks and their handles -/

/-- The tasks have ids of their own, which are not given out again, and periods. -/
structure Punctual (s : MembershipSession) : Prop where
  ids : (s.tasks.map MembershipTask.id).Nodup
  task_lt : ∀ t ∈ s.tasks, t.id < s.nextTask
  sweep_lt : ∀ id, s.sweepTask = some id → id < s.nextTask
  probe_lt : ∀ id, s.probeTask = some id → id < s.nextTask
  period_pos : ∀ t ∈ s.tasks, 0 < t.period

/-- A run changes the task and no other. -/
theorem Punctual.tasks_split (h : s.Punctual) (ht : t ∈ s.tasks) :
    ∃ pre post, s.tasks = pre ++ t :: post ∧ (∀ u ∈ pre ++ post, u.id ≠ t.id) ∧
      (s.runTask t).tasks = pre ++ s.nextRun t :: post := by
  obtain ⟨pre, post, hsplit, hne⟩ := Keyed.exists_split h.ids ht
  refine ⟨pre, post, hsplit, hne, ?_⟩
  rw [tasks_runTask, hsplit]
  exact Keyed.map_ite (fun _ => s.nextRun t) hne

/-- After a run the tasks are the one that ran and those that were there. -/
theorem mem_tasks_runTask {u : MembershipTask} (hu : u ∈ (s.runTask t).tasks) :
    u = s.nextRun t ∨ u ∈ s.tasks := by
  rw [tasks_runTask] at hu
  obtain ⟨v, hv, rfl⟩ := List.mem_map.mp hu
  split
  · exact Or.inl rfl
  · exact Or.inr hv

/-- Ids and periods stay as they are when a task runs. -/
theorem Punctual.runTask (h : s.Punctual) (ht : t ∈ s.tasks) : (s.runTask t).Punctual where
  ids := by
    have hids : (s.runTask t).tasks.map MembershipTask.id = s.tasks.map MembershipTask.id := by
      obtain ⟨pre, post, hold, -, hnew⟩ := h.tasks_split ht
      rw [hold, hnew]
      simp [nextRun]
    rw [hids]
    exact h.ids
  task_lt u hu := by
    rw [nextTask_runTask]
    rcases mem_tasks_runTask hu with rfl | hu
    · exact h.task_lt t ht
    · exact h.task_lt u hu
  sweep_lt id hid := by
    rw [nextTask_runTask]
    exact h.sweep_lt id (by simpa using hid)
  probe_lt id hid := by
    rw [nextTask_runTask]
    exact h.probe_lt id (by simpa using hid)
  period_pos u hu := by
    rcases mem_tasks_runTask hu with rfl | hu
    · exact h.period_pos t ht
    · exact h.period_pos u hu

/-- After the first of the tasks has run, none is overdue. -/
theorem dueFrom_runTask (hfirst : s.DueFrom t.due) : (s.runTask t).DueFrom t.due := by
  intro u hu
  rcases mem_tasks_runTask hu with rfl | hu
  · exact Nat.le_add_right _ _
  · exact hfirst u hu

/-! ## The passing of time -/

/-- A bound on the runs up to `limit`: each task runs at most once per millisecond. -/
def load (limit : Nat) : List MembershipTask → Nat
  | [] => 0
  | t :: rest => (limit + 1 - t.due) + load limit rest

/-- The bound for two lists of tasks is the sum of theirs. -/
theorem load_append (limit : Nat) (tasks more : List MembershipTask) :
    load limit (tasks ++ more) = load limit tasks + load limit more := by
  induction tasks with
  | nil => simp [load]
  | cons t rest ih =>
      rw [List.cons_append, load, load, ih]
      omega

/-- Every run of a task that is due makes the load smaller. -/
theorem Punctual.load_runTask_lt (h : s.Punctual) (ht : t ∈ s.tasks) (hdue : t.due ≤ limit) :
    load limit (s.runTask t).tasks < load limit s.tasks := by
  obtain ⟨pre, post, hold, -, hnew⟩ := h.tasks_split ht
  have hperiod := h.period_pos t ht
  have hnext : (s.nextRun t).due = t.due + t.period := rfl
  rw [hold, hnew, load_append, load_append, load, load, hnext]
  omega

/-- Without a load, all tasks lie ahead. -/
theorem lt_due_of_load_eq_zero {tasks : List MembershipTask} (h : load limit tasks = 0) :
    ∀ t ∈ tasks, limit + 1 ≤ t.due := by
  induction tasks with
  | nil => simp
  | cons first rest ih =>
      rw [load] at h
      intro t ht
      rcases List.mem_cons.mp ht with rfl | ht
      · omega
      · exact ih (by omega) t ht

/-- If no task is overdue, the load is at most a run of each task per millisecond. -/
theorem load_le {tasks : List MembershipTask} {now : Nat} (h : ∀ t ∈ tasks, now ≤ t.due)
    (ms : Nat) : load (now + ms) tasks ≤ tasks.length * (ms + 1) := by
  induction tasks with
  | nil => exact Nat.zero_le _
  | cons first rest ih =>
      have hfirst := h first List.mem_cons_self
      have hrest := ih fun t ht => h t (List.mem_cons_of_mem _ ht)
      rw [load, List.length_cons, Nat.add_mul]
      omega

section

variable {P : MembershipSession → Prop}

/-- What a run of the first task keeps is kept by all the runs up to `limit`. -/
theorem advanceTo_induction
    (hrun : ∀ s t, P s → t ∈ s.tasks → s.DueFrom t.due → s.now ≤ t.due → P (s.runTask t))
    (fuel : Nat) (hp : s.Punctual) (hs : P s) (hdue : s.DueFrom s.now) (hnow : s.now ≤ limit)
    (hload : load limit s.tasks ≤ fuel) :
    ∃ u, advanceTo fuel limit s = { u with now := limit } ∧ P u ∧ u.Punctual ∧ u.now ≤ limit ∧
      u.DueFrom (limit + 1) := by
  -- The load pays for the runs: each takes one unit of fuel and at least one of the load.
  induction fuel generalizing s with
  | zero =>
      exact ⟨s, rfl, hs, hp, hnow, lt_due_of_load_eq_zero (Nat.le_zero.mp hload)⟩
  | succ fuel ih =>
      rw [advanceTo]
      cases hnext : s.nextTask? limit with
      | none => exact ⟨s, rfl, hs, hp, hnow, of_nextTask?_eq_none hnext⟩
      | some t =>
          obtain ⟨ht, hlimit, hfirst⟩ := of_nextTask? hnext
          have hless := hp.load_runTask_lt ht hlimit
          refine ih (hp.runTask ht) (hrun s t hs ht hfirst (hdue t ht)) ?_ ?_ (by omega)
          · rw [now_runTask]
            exact dueFrom_runTask hfirst
          · rw [now_runTask]
            exact hlimit

/-- **What every single run keeps is kept while time passes.**  At the end all tasks lie ahead. -/
theorem advance_induction
    (hrun : ∀ s t, P s → t ∈ s.tasks → s.DueFrom t.due → s.now ≤ t.due → P (s.runTask t))
    (hp : s.Punctual) (hs : P s) (hdue : s.DueFrom s.now) (ms : Nat) :
    ∃ u, s.advance ms = { u with now := s.now + ms } ∧ P u ∧ u.Punctual ∧ u.now ≤ s.now + ms ∧
      u.DueFrom (s.now + ms + 1) :=
  advanceTo_induction hrun _ hp hs hdue (Nat.le_add_right _ _) (load_le hdue ms)

end

/-! ## Between operations -/

/-- Between operations all tasks lie ahead. -/
structure Settled (s : MembershipSession) : Prop extends Punctual s where
  ahead : s.DueFrom (s.now + 1)

/-- A session in which no task was started. -/
theorem settled_new (tracker : Tracker) : ({ tracker } : MembershipSession).Settled where
  ids := List.nodup_nil
  task_lt := by simp
  sweep_lt := by simp
  probe_lt := by simp
  period_pos := by simp
  ahead := by
    intro t ht
    simp at ht

/-- The tracker, the connections and the channel have no part in it. -/
theorem Settled.frame (h : s.Settled) (tracker : Tracker) (script : ConnectionScript)
    (unread : List MembershipEvent) : { s with tracker, script, unread }.Settled :=
  ⟨⟨h.ids, h.task_lt, h.sweep_lt, h.probe_lt, h.period_pos⟩, h.ahead⟩

/-- It does not matter which tasks are known as the sweep and the prober, if their ids were given
out. -/
theorem Settled.handles (h : s.Settled) {sweepTask probeTask : Option Nat}
    (hsweep : ∀ id, sweepTask = some id → id < s.nextTask)
    (hprobe : ∀ id, probeTask = some id → id < s.nextTask) :
    { s with sweepTask, probeTask }.Settled :=
  ⟨⟨h.ids, h.task_lt, hsweep, hprobe, h.period_pos⟩, h.ahead⟩

/-- Tasks can be taken away. -/
theorem Settled.sublist (h : s.Settled) {tasks : List MembershipTask}
    (hsub : tasks.Sublist s.tasks) : { s with tasks }.Settled where
  ids := (hsub.map _).nodup h.ids
  task_lt t ht := h.task_lt t (hsub.subset ht)
  sweep_lt := h.sweep_lt
  probe_lt := h.probe_lt
  period_pos t ht := h.period_pos t (hsub.subset ht)
  ahead t ht := h.ahead t (hsub.subset ht)

/-- A task that is stopped is gone, and the others still lie ahead. -/
theorem Settled.stopTask (h : s.Settled) (id : Option Nat) : (s.stopTask id).Settled := by
  cases id with
  | none => exact h
  | some id => exact h.sublist List.filter_sublist

/-- The next task that is started. -/
def newTask (s : MembershipSession) (job : MembershipJob) (period : Nat) : MembershipTask where
  id := s.nextTask
  job := job
  period := period
  due := s.now + period
  order := s.nextOrder

/-- The tasks after one was started: it comes last, if it runs at all. -/
theorem tasks_startTask (s : MembershipSession) (job : MembershipJob) (period : Nat) :
    (s.startTask job period).1.tasks =
      s.tasks ++ if s.running && period != 0 then [s.newTask job period] else [] := by
  simp only [startTask]
  split
  · rfl
  · rw [List.append_nil]

/-- A task that is started has its first run ahead. -/
theorem Settled.startTask (h : s.Settled) (job : MembershipJob) (period : Nat) :
    (s.startTask job period).1.Settled := by
  have hnew : ∀ t ∈ (s.startTask job period).1.tasks,
      t ∈ s.tasks ∨ t.id = s.nextTask ∧ 0 < t.period ∧ t.due = s.now + t.period := by
    intro t ht
    rw [tasks_startTask] at ht
    rcases List.mem_append.mp ht with ht | ht
    · exact Or.inl ht
    · right
      split at ht
      · rename_i hruns
        simp only [Bool.and_eq_true, bne_iff_ne] at hruns
        obtain rfl := List.mem_singleton.mp ht
        exact ⟨rfl, Nat.pos_of_ne_zero hruns.2, rfl⟩
      · simp at ht
  have hnext : (s.startTask job period).1.nextTask = s.nextTask + 1 := rfl
  have hnow : (s.startTask job period).1.now = s.now := rfl
  refine ⟨⟨?_, ?_, ?_, ?_, ?_⟩, ?_⟩
  · rw [tasks_startTask, List.map_append]
    refine List.nodup_append.mpr ⟨h.ids, ?_, ?_⟩
    · split <;> simp
    · intro id hid other hother
      obtain ⟨t, ht, rfl⟩ := List.mem_map.mp hid
      have hlt := h.task_lt t ht
      split at hother
      · have : other = s.nextTask := by simpa [newTask] using hother
        omega
      · simp at hother
  · intro t ht
    rw [hnext]
    rcases hnew t ht with ht | ⟨hid, -, -⟩
    · have := h.task_lt t ht
      omega
    · omega
  · intro id hid
    have := h.sweep_lt id hid
    omega
  · intro id hid
    have := h.probe_lt id hid
    omega
  · intro t ht
    rcases hnew t ht with ht | ⟨-, hperiod, -⟩
    · exact h.period_pos t ht
    · exact hperiod
  · intro t ht
    rw [hnow]
    rcases hnew t ht with ht | ⟨-, hperiod, hdue⟩
    · exact h.ahead t ht
    · omega

/-- No task is late between operations. -/
theorem Settled.dueFrom (h : s.Settled) : s.DueFrom s.now :=
  fun t ht => Nat.le_of_succ_le (h.ahead t ht)

/-- After the passing of time all tasks lie ahead again. -/
theorem Settled.advance (h : s.Settled) (ms : Nat) : (s.advance ms).Settled := by
  obtain ⟨u, hu, -, hp, -, hahead⟩ := advance_induction (P := fun _ => True)
    (fun _ _ _ _ _ _ => trivial) h.toPunctual trivial h.dueFrom ms
  rw [hu]
  exact ⟨⟨hp.ids, hp.task_lt, hp.sweep_lt, hp.probe_lt, hp.period_pos⟩, hahead⟩

@[simp] theorem nextTask_stopTask (s : MembershipSession) (id : Option Nat) :
    (s.stopTask id).nextTask = s.nextTask := by
  cases id <;> rfl

@[simp] theorem sweepTask_stopTask (s : MembershipSession) (id : Option Nat) :
    (s.stopTask id).sweepTask = s.sweepTask := by
  cases id <;> rfl

@[simp] theorem probeTask_stopTask (s : MembershipSession) (id : Option Nat) :
    (s.stopTask id).probeTask = s.probeTask := by
  cases id <;> rfl

/-- Stopping a task does nothing to the tracker. -/
@[simp] theorem tracker_stopTask (s : MembershipSession) (id : Option Nat) :
    (s.stopTask id).tracker = s.tracker := by
  cases id <;> rfl

@[simp] theorem now_stopTask (s : MembershipSession) (id : Option Nat) :
    (s.stopTask id).now = s.now := by
  cases id <;> rfl

/-- Starting the sweep. -/
theorem Settled.startSweep (h : s.Settled) : s.startSweep.Settled := by
  have hstopped := (h.startTask .sweep s.tracker.config.heartbeatInterval).stopTask s.sweepTask
  refine hstopped.handles ?_ hstopped.probe_lt
  intro id hid
  obtain rfl := Option.some.inj hid
  rw [nextTask_stopTask]
  exact Nat.lt_succ_self s.nextTask

/-- Stopping the sweep. -/
theorem Settled.stopSweep (h : s.Settled) : s.stopSweep.Settled := by
  have hstopped := h.stopTask s.sweepTask
  exact hstopped.handles (by simp) hstopped.probe_lt

/-- Starting the prober. -/
theorem Settled.startProber (h : s.Settled) (nodes : List StaticNode) (interval : Nat) :
    (s.startProber nodes interval).Settled := by
  have hstarted := h.startTask (.probe nodes) interval
  refine hstarted.handles hstarted.sweep_lt ?_
  intro id hid
  obtain rfl := Option.some.inj hid
  exact Nat.lt_succ_self s.nextTask

/-- Stopping the prober. -/
theorem Settled.stopProber (h : s.Settled) : s.stopProber.Settled := by
  have hstopped := h.stopTask s.probeTask
  exact hstopped.handles hstopped.sweep_lt (by simp)

/-- Every operation leaves all tasks ahead. -/
theorem Settled.step (h : s.Settled) (op : Step) : (s.step op).Settled := by
  cases op with
  | event e => exact h.frame _ _ _
  | receive m =>
      simp only [MembershipSession.step, receive]
      split
      · split
        · exact h.frame _ _ _
        · exact h
      · exact h
  | probe nodes => exact h.frame _ _ _
  | startSweep => exact h.startSweep
  | stopSweep => exact h.stopSweep
  | startProber nodes interval => exact h.startProber nodes interval
  | stopProber => exact h.stopProber
  | stopTimers =>
      have hnone := h.sublist (List.nil_sublist s.tasks)
      exact ⟨⟨hnone.ids, hnone.task_lt, hnone.sweep_lt, hnone.probe_lt, hnone.period_pos⟩,
        hnone.ahead⟩
  | rescript script => exact h.frame _ _ _
  | readEvents => exact h.frame _ _ _
  | advance ms => exact h.advance ms

/-- **Run theorem.**  After any operations all tasks lie ahead. -/
theorem Settled.run (h : s.Settled) (ops : List Step) : (s.run ops).Settled := by
  induction ops generalizing s with
  | nil => exact h
  | cons op rest ih => exact ih (h.step op)

end InferenceRouting.Cluster.MembershipSession
