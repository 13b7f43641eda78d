import InferenceRouting.Proofs.Cluster.Candidates
import InferenceRouting.Proofs.Cluster.Records
import InferenceRouting.Proofs.Cluster.Sessions

/-!
# How long ago a usable node was heard of

A node counts as reachable while it is online or busy.  Every event that makes a node reachable
also hears of it, so the times at which the reachable nodes were heard of have a lower bound
(`HeardSince`) that no later event breaks; a sweep moves the bound up to the timeout before it.

While the periodic sweep runs, that bound is never further behind than the timeout and one interval.
The invariant is said of the task of the sweep (`Sweeping`): since its last run, an interval before
it is due, nothing can have become older.
-/

namespace InferenceRouting.Cluster

/-- Whether a node is taken to be there, be it free for work or not. -/
def Node.Reachable (n : Node) : Prop :=
  n.status = .online ∨ n.status = .busy

namespace Tracker

variable {t : Tracker} {n : Node} {now time : Nat}

/-- Every reachable node was heard of at `time` or later. -/
def HeardSince (t : Tracker) (time : Nat) : Prop :=
  ∀ id n, t.node? id = some n → n.Reachable → time ≤ n.lastSeen

/-- Every node was heard of at `time` or earlier. -/
def HeardBy (t : Tracker) (time : Nat) : Prop :=
  ∀ id n, t.node? id = some n → n.lastSeen ≤ time

theorem HeardSince.mono {earlier : Nat} (h : t.HeardSince time) (hle : earlier ≤ time) :
    t.HeardSince earlier :=
  fun id n hn hreach => Nat.le_trans hle (h id n hn hreach)

theorem HeardBy.mono {later : Nat} (h : t.HeardBy time) (hle : time ≤ later) : t.HeardBy later :=
  fun id n hn => Nat.le_trans (h id n hn) hle

theorem lastSeen_of_heard {m : Message} {record : Option Node}
    (h : heard now m record = some n) : n.lastSeen = now := by
  cases record with
  | some old =>
      obtain rfl := Option.some.inj h
      rfl
  | none =>
      simp only [heard] at h
      split at h
      · cases h
      · obtain rfl := Option.some.inj h
        rfl

theorem lastSeen_of_registered {host : String} {port : Nat} {name : Option String}
    {models : List String} {record : Option Node}
    (h : registered now host port name models record = some n) :
    n.lastSeen = now ∨ record = some n := by
  cases record with
  | some old => exact Or.inr h
  | none =>
      obtain rfl := Option.some.inj h
      exact Or.inl rfl

theorem lastSeen_sweptNode (t : Tracker) (now : Nat) (n : Node) :
    (t.sweptNode now n).lastSeen = n.lastSeen := by
  unfold sweptNode
  split <;> rfl

/-- A sweep makes no node reachable and hears of none. -/
theorem of_reachable_sweptNode (h : (t.sweptNode now n).Reachable) :
    t.sweptNode now n = n ∧ t.isSilent now n = false := by
  unfold sweptNode at h ⊢
  split
  · rename_i hsilent
    rw [if_pos hsilent] at h
    rcases h with h | h <;> cases h
  · rename_i hkept
    exact ⟨rfl, by simpa using hkept⟩

/-- **What makes a node reachable.**  A node has just been heard of, or it was known before with the
same time, and was reachable if it is now. -/
theorem lastSeen_recordAfter {config : MembershipConfig} {id : String} {record : Option Node}
    {e : TrackerEvent} (h : e.recordAfter config now id record = some n) :
    n.lastSeen = now ∨
      ∃ old, record = some old ∧ old.lastSeen = n.lastSeen ∧ (n.Reachable → old.Reachable) := by
  have hkept : record = some n →
      ∃ old, record = some old ∧ old.lastSeen = n.lastSeen ∧ (n.Reachable → old.Reachable) :=
    fun hsame => ⟨n, hsame, rfl, fun hreach => hreach⟩
  cases e with
  | message m =>
      simp only [TrackerEvent.recordAfter] at h
      split at h
      · exact Or.inl (lastSeen_of_heard h)
      · exact Or.inr (hkept h)
  | add host port name =>
      simp only [TrackerEvent.recordAfter] at h
      split at h
      · exact (lastSeen_of_registered h).imp_right hkept
      · exact Or.inr (hkept h)
  | addStatic static =>
      simp only [TrackerEvent.recordAfter] at h
      split at h
      · exact (lastSeen_of_registered h).imp_right hkept
      · exact Or.inr (hkept h)
  | remove other =>
      simp only [TrackerEvent.recordAfter] at h
      split at h
      · cases h
      · exact Or.inr (hkept h)
  | sweep =>
      simp only [TrackerEvent.recordAfter] at h
      obtain ⟨old, rfl, rfl⟩ := Option.map_eq_some_iff.mp h
      refine Or.inr ⟨old, rfl, (lastSeen_sweptNode _ now old).symm, fun hreach => ?_⟩
      rw [(of_reachable_sweptNode hreach).1] at hreach
      exact hreach

/-- No event breaks the lower bound. -/
theorem HeardSince.step (h : t.HeardSince time) (hle : time ≤ now) (e : TrackerEvent) :
    (t.step now e).1.HeardSince time := by
  intro id n hn hreach
  rw [node?_step] at hn
  rcases lastSeen_recordAfter hn with hseen | ⟨old, hold, hseen, hbefore⟩
  · omega
  · have := h id old hold (hbefore hreach)
    omega

/-- No event breaks the upper bound. -/
theorem HeardBy.step (h : t.HeardBy time) (hle : now ≤ time) (e : TrackerEvent) :
    (t.step now e).1.HeardBy time := by
  intro id n hn
  rw [node?_step] at hn
  rcases lastSeen_recordAfter hn with hseen | ⟨old, hold, hseen, -⟩
  · omega
  · have := h id old hold
    omega

theorem HeardSince.run (h : t.HeardSince time) {events : List (Nat × TrackerEvent)}
    (hle : ∀ e ∈ events, time ≤ e.1) : (t.run events).HeardSince time :=
  run_induction (motive := fun u => u.HeardSince time) (fun _ e he h => h.step (hle e he) e.2) h

theorem HeardBy.run (h : t.HeardBy time) {events : List (Nat × TrackerEvent)}
    (hle : ∀ e ∈ events, e.1 ≤ time) : (t.run events).HeardBy time :=
  run_induction (motive := fun u => u.HeardBy time) (fun _ e he h => h.step (hle e he) e.2) h

/-- A sweep leaves no reachable node that was silent for longer than the timeout. -/
theorem heardSince_sweep (t : Tracker) (now : Nat) :
    (t.sweep now).1.HeardSince (now - t.config.nodeTimeout) := by
  intro id n hn hreach
  rw [node?_sweep] at hn
  obtain ⟨old, -, rfl⟩ := Option.map_eq_some_iff.mp hn
  obtain ⟨hsame, hheard⟩ := of_reachable_sweptNode hreach
  rw [hsame] at hreach ⊢
  have hstatus : (old.status == .online || old.status == .busy) = true := by
    rcases hreach with h | h <;> simp [h]
  simp only [isSilent, hstatus, Bool.true_and, decide_eq_false_iff_not] at hheard
  omega

end Tracker

namespace MembershipSession

variable {s u : MembershipSession} {t : MembershipTask} {config : MembershipConfig}
  {start id : Nat}

/-! ## The running sweep -/

/-- Once the sweep has run, its last run was an interval before `due`, and it left no reachable node
that was silent for longer than the timeout.  The first run is an interval after the start. -/
def SweptBefore (config : MembershipConfig) (start due : Nat) (tracker : Tracker) : Prop :=
  start + config.heartbeatInterval < due →
    tracker.HeardSince (due - (config.heartbeatInterval + config.nodeTimeout))

/-- The sweep that was started at `start` runs as the task `id`. -/
structure Sweeping (config : MembershipConfig) (start id : Nat) (s : MembershipSession) : Prop where
  config_eq : s.tracker.config = config
  wellFormed : s.tracker.WellFormed
  sweep_eq : s.sweepTask = some id
  probe_ne : s.probeTask ≠ some id
  task : ∃ t ∈ s.tasks, t.id = id ∧ t.job = .sweep ∧ t.period = config.heartbeatInterval ∧
    t.due ≤ s.now + config.heartbeatInterval ∧ SweptBefore config start t.due s.tracker

/-- What happens beside the sweep does not touch it: events of the tracker, other tasks, time. -/
theorem Sweeping.beside (h : s.Sweeping config start id) (events : List (Nat × TrackerEvent))
    (htracker : u.tracker = s.tracker.run events) (hevents : ∀ e ∈ events, s.now ≤ e.1)
    (hnow : s.now ≤ u.now) (hsweep : u.sweepTask = s.sweepTask) (hprobe : u.probeTask ≠ some id)
    (htasks : ∀ t ∈ s.tasks, t.id = id → t ∈ u.tasks) : u.Sweeping config start id := by
  obtain ⟨t, ht, hid, hjob, hperiod, hdue, hswept⟩ := h.task
  refine ⟨?_, ?_, hsweep.trans h.sweep_eq, hprobe, t, htasks t ht hid, hid, hjob, hperiod, ?_, ?_⟩
  · rw [htracker, Tracker.config_run]
    exact h.config_eq
  · rw [htracker]
    exact h.wellFormed.run events
  · omega
  · intro hlater
    rw [htracker]
    refine (hswept hlater).run fun e he => ?_
    have := hevents e he
    omega

/-- What is left when a task is ended. -/
theorem mem_tasks_stopTask {handle : Option Nat} (ht : t ∈ s.tasks) (hne : handle ≠ some t.id) :
    t ∈ (s.stopTask handle).tasks := by
  cases handle with
  | none => exact ht
  | some other =>
      have hid : t.id ≠ other := fun heq => hne (heq ▸ rfl)
      exact List.mem_filter.mpr ⟨ht, decide_eq_true hid⟩

theorem Settled.sweepTask_ne (h : s.Settled) : s.sweepTask ≠ some s.nextTask := by
  intro heq
  exact Nat.lt_irrefl _ (h.sweep_lt _ heq)

theorem Settled.probeTask_ne (h : s.Settled) : s.probeTask ≠ some s.nextTask := by
  intro heq
  exact Nat.lt_irrefl _ (h.probe_lt _ heq)

theorem tracker_startSweep (s : MembershipSession) : s.startSweep.tracker = s.tracker :=
  tracker_stopTask _ _

theorem now_startSweep (s : MembershipSession) : s.startSweep.now = s.now :=
  now_stopTask _ _

/-- The sweep is started: it has not run yet. -/
theorem sweeping_startSweep (h : s.Settled) (hwell : s.tracker.WellFormed)
    (hrunning : s.running = true) (hinterval : 0 < s.tracker.config.heartbeatInterval) :
    s.startSweep.Sweeping s.tracker.config s.now s.nextTask := by
  have hstart : s.startSweep = { (s.startTask .sweep
      s.tracker.config.heartbeatInterval).1.stopTask s.sweepTask with
        sweepTask := some s.nextTask } := rfl
  refine ⟨?_, ?_, rfl, ?_, s.newTask .sweep s.tracker.config.heartbeatInterval, ?_, rfl, rfl, rfl,
    ?_, ?_⟩
  · rw [tracker_startSweep]
  · rw [tracker_startSweep]
    exact hwell
  · rw [hstart]
    simp only [probeTask_stopTask]
    exact h.probeTask_ne
  · rw [hstart]
    refine mem_tasks_stopTask ?_ h.sweepTask_ne
    rw [tasks_startTask]
    simp [hrunning, Nat.ne_of_gt hinterval]
  · rw [now_startSweep]
    exact Nat.le_refl _
  · intro hlater
    exact absurd hlater (Nat.lt_irrefl _)

/-- The sweep or another task runs. -/
theorem Sweeping.runTask (h : s.Sweeping config start id) (hp : s.Punctual) (ht : t ∈ s.tasks)
    (hnow : s.now ≤ t.due) : (s.runTask t).Sweeping config start id := by
  by_cases hown : t.id = id
  · obtain ⟨own, hmem, hid, hjob, hperiod, hdue, -⟩ := h.task
    obtain rfl : t = own := Keyed.eq_of_mem hp.ids hmem ht (hown.trans hid.symm)
    obtain rfl := h.config_eq
    obtain ⟨pre, post, -, -, htasks⟩ := hp.tasks_split ht
    have htracker : (s.runTask t).tracker = (s.tracker.step t.due .sweep).1 :=
      tracker_runTask_of_sweep hjob
    refine ⟨?_, ?_, ?_, ?_, s.nextRun t, ?_, hid, hjob, hperiod, ?_, ?_⟩
    · rw [htracker, Tracker.config_step]
    · rw [htracker]
      exact h.wellFormed.step t.due .sweep
    · rw [sweepTask_runTask]
      exact h.sweep_eq
    · rw [probeTask_runTask]
      exact h.probe_ne
    · simp [htasks]
    · simp [nextRun, hperiod]
    · intro _
      rw [htracker]
      refine (s.tracker.heardSince_sweep t.due).mono ?_
      simp only [nextRun, hperiod]
      omega
  · obtain ⟨events, htracker, hevents⟩ := s.exists_run_runTask t
    refine h.beside events htracker ?_ ?_ (sweepTask_runTask s t) ?_ ?_
    · intro e he
      rw [hevents e he]
      exact hnow
    · rw [now_runTask]
      exact hnow
    · rw [probeTask_runTask]
      exact h.probe_ne
    · intro own hmem hid
      rw [tasks_runTask]
      refine List.mem_map.mpr ⟨own, hmem, if_neg ?_⟩
      omega

theorem Sweeping.advance (h : s.Sweeping config start id) (hs : s.Settled) (ms : Nat) :
    (s.advance ms).Sweeping config start id := by
  have hrun : ∀ (s : MembershipSession) (t : MembershipTask),
      s.Punctual ∧ s.Sweeping config start id → t ∈ s.tasks → s.DueFrom t.due → s.now ≤ t.due →
      (s.runTask t).Punctual ∧ (s.runTask t).Sweeping config start id := by
    intro s t hkept ht _ hnow
    exact ⟨hkept.1.runTask ht, hkept.2.runTask hkept.1 ht hnow⟩
  obtain ⟨u, hu, ⟨-, hsweeping⟩, -, hnow, -⟩ :=
    advance_induction hrun hs.toPunctual ⟨hs.toPunctual, h⟩ hs.dueFrom ms
  rw [hu]
  exact hsweeping.beside [] rfl (by simp) hnow rfl hsweeping.probe_ne
    fun _ ht _ => ht

/-- Whether an operation leaves the sweep running as it is. -/
def Step.keepsSweep : Step → Bool
  | .startSweep => false
  | .stopSweep => false
  | .stopTimers => false
  | _ => true

/-- What leaves the sweep running keeps the invariant. -/
theorem Sweeping.step (h : s.Sweeping config start id) (hs : s.Settled) {op : Step}
    (hkeeps : op.keepsSweep = true) : (s.step op).Sweeping config start id := by
  obtain ⟨-, events, htracker, hwithin⟩ := hs.exists_run_step op
  have hbeside := h.beside events htracker fun e he => (hwithin e he).1
  have htasks : ∀ t ∈ s.tasks, t.id = id → t ∈ s.tasks := fun _ ht _ => ht
  cases op with
  | event e => exact hbeside (Nat.le_refl _) rfl h.probe_ne htasks
  | receive m =>
      have hsame : (s.step (.receive m)).tasks = s.tasks ∧
          (s.step (.receive m)).now = s.now ∧ (s.step (.receive m)).sweepTask = s.sweepTask ∧
          (s.step (.receive m)).probeTask = s.probeTask := by
        simp only [MembershipSession.step, receive]
        split
        · split <;> exact ⟨rfl, rfl, rfl, rfl⟩
        · exact ⟨rfl, rfl, rfl, rfl⟩
      obtain ⟨htasks', hnow, hsweep, hprobe⟩ := hsame
      exact hbeside (Nat.le_of_eq hnow.symm) hsweep (hprobe ▸ h.probe_ne) (htasks' ▸ htasks)
  | probe nodes => exact hbeside (Nat.le_refl _) rfl h.probe_ne htasks
  | startSweep => cases hkeeps
  | stopSweep => cases hkeeps
  | startProber nodes interval =>
      refine hbeside (Nat.le_refl _) rfl ?_ ?_
      · intro heq
        have hnext : s.nextTask = id := Option.some.inj heq
        have hlt := hs.sweep_lt id h.sweep_eq
        omega
      · intro t ht _
        have hstarted := s.tasks_startTask (.probe nodes) interval
        simp only [MembershipSession.step, MembershipSession.startProber]
        rw [hstarted]
        exact List.mem_append_left _ ht
  | stopProber =>
      refine hbeside (Nat.le_of_eq (now_stopTask s _).symm) (sweepTask_stopTask s _) ?_ ?_
      · intro heq
        have hnone : none = some id := heq
        cases hnone
      · intro t ht hid
        exact mem_tasks_stopTask ht (hid ▸ h.probe_ne)
  | stopTimers => cases hkeeps
  | rescript script => exact hbeside (Nat.le_refl _) rfl h.probe_ne htasks
  | readEvents => exact hbeside (Nat.le_refl _) rfl h.probe_ne htasks
  | advance ms => exact h.advance hs ms

theorem Sweeping.run (h : s.Sweeping config start id) (hs : s.Settled) {ops : List Step}
    (hkeeps : ∀ op ∈ ops, op.keepsSweep = true) : (s.run ops).Sweeping config start id := by
  induction ops generalizing s with
  | nil => exact h
  | cons op rest ih =>
      have hfirst := h.step hs (hkeeps op List.mem_cons_self)
      exact ih hfirst (hs.step op) fun op hop => hkeeps op (List.mem_cons_of_mem _ hop)

/-- No node is heard of ahead of time. -/
theorem Settled.heardBy_run (hs : s.Settled) (h : s.tracker.HeardBy s.now) (ops : List Step) :
    (s.run ops).tracker.HeardBy (s.run ops).now := by
  obtain ⟨hnow, events, htracker, hwithin⟩ := hs.exists_run ops
  rw [htracker]
  exact (h.mono hnow).run hwithin

/-- Between operations, once the sweep has run, no reachable node has been silent for longer than
the timeout and one interval. -/
theorem Sweeping.bounded (h : s.Sweeping config start id) (hs : s.Settled)
    (hpast : s.tracker.HeardBy s.now) (hran : start + config.heartbeatInterval ≤ s.now) {n : Node}
    (hn : n ∈ s.tracker.nodes) (hreach : n.Reachable) :
    n.lastSeen ≤ s.now ∧
      s.now - n.lastSeen ≤ config.nodeTimeout + config.heartbeatInterval := by
  obtain ⟨t, ht, -, -, -, -, hswept⟩ := h.task
  have hahead := hs.ahead t ht
  have hknown := h.wellFormed.node?_eq hn
  have hheard := hswept (by omega) n.id n hknown hreach
  exact ⟨hpast n.id n hknown, by omega⟩

/-- **The sweep bounds how long ago a usable node was heard of.**  The periodic sweep is started in
a session in use, with an interval, and neither stopped nor started again.  Once it has run for the
first time, an interval after its start, every node that is online or busy, and so every candidate
for a model, was heard of within the timeout and one interval. -/
theorem run_bounds_staleness (config : MembershipConfig) (before after : List Step)
    (hrunning : (run { tracker := .new config } before).running = true)
    (hinterval : 0 < config.heartbeatInterval)
    (hkeeps : ∀ op ∈ after, op.keepsSweep = true)
    (hran : (run { tracker := .new config } before).now + config.heartbeatInterval ≤
      ((run { tracker := .new config } before).startSweep.run after).now) :
    let u := (run { tracker := .new config } before).startSweep.run after
    (∀ n ∈ u.tracker.nodes, n.status = .online ∨ n.status = .busy → n.lastSeen ≤ u.now ∧
      u.now - n.lastSeen ≤ config.nodeTimeout + config.heartbeatInterval) ∧
    ∀ model, ∀ n ∈ u.tracker.candidates model, n.lastSeen ≤ u.now ∧
      u.now - n.lastSeen ≤ config.nodeTimeout + config.heartbeatInterval := by
  have hnew := settled_new (.new config)
  have hsettled := hnew.run before
  obtain ⟨-, events, htracker, -⟩ := hnew.exists_run before
  have hwell : (run { tracker := .new config } before).tracker.WellFormed := by
    rw [htracker]
    exact (Tracker.wellFormed_new config).run events
  have hconfig : (run { tracker := .new config } before).tracker.config = config := by
    rw [htracker]
    exact Tracker.config_run _ events
  -- What was heard of is in the past: at first nothing was, and starting the sweep hears of none.
  have hpast := hnew.heardBy_run (fun id n hn => by cases hn) before
  have hstart : (run { tracker := .new config } before).startSweep.tracker.HeardBy
      (run { tracker := .new config } before).startSweep.now := by
    rw [tracker_startSweep, now_startSweep]
    exact hpast
  have hheard := hsettled.startSweep.heardBy_run hstart after
  have hstarted := sweeping_startSweep hsettled hwell hrunning (by rw [hconfig]; exact hinterval)
  rw [hconfig] at hstarted
  have hsweeping := hstarted.run hsettled.startSweep hkeeps
  have hbounded := fun n =>
    hsweeping.bounded (hsettled.startSweep.run after) hheard hran (n := n)
  refine ⟨hbounded, fun model n hn => ?_⟩
  obtain ⟨hmem, honline, -⟩ := (Tracker.mem_candidates _ model).mp hn
  exact hbounded n hmem (Or.inl (by simpa [Node.isOnline] using honline))

/-- The heartbeat of a node. -/
def heartbeat (id : String) : Message where
  kind := .heartbeat
  nodeId := id
  payload := .obj []
  timestamp := Clock.wallMillis 10

/-- A node that falls silent right after a sweep is still online 39 ms later: the sweep 30 ms later
finds it just within the timeout, and the next one is due in another millisecond. -/
theorem run_bounds_staleness_silent_node :
    let config : MembershipConfig := { heartbeatInterval := 10, nodeTimeout := 30 }
    let after : List Step := [.advance 10, .receive (some (heartbeat "a")), .advance 39]
    let u := (run { tracker := .new config } []).startSweep.run after
    (u.tracker.nodes.map fun n => (n.id, n.status, u.now - n.lastSeen)) = [("a", .online, 39)] ∧
    (∀ n ∈ u.tracker.nodes, n.status = .online ∨ n.status = .busy → n.lastSeen ≤ u.now ∧
      u.now - n.lastSeen ≤ config.nodeTimeout + config.heartbeatInterval) ∧
    ∀ model, ∀ n ∈ u.tracker.candidates model, n.lastSeen ≤ u.now ∧
      u.now - n.lastSeen ≤ config.nodeTimeout + config.heartbeatInterval :=
  ⟨by decide +kernel, run_bounds_staleness _ [] _ rfl (by decide) (by decide) (by decide +kernel)⟩

end MembershipSession

end InferenceRouting.Cluster
