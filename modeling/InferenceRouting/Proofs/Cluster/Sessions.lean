import InferenceRouting.Proofs.Cluster.Feeds
import InferenceRouting.Proofs.Cluster.Ticks

/-!
# What happens to the tracker of a session

Whatever is done in a session, its tracker changes by events alone: a probe round registers and
hears, a task sweeps or probes at its own time, and the passing of time is the runs of tasks.  So
what holds of a tracker after every run of events holds of the tracker of every session.
-/

namespace InferenceRouting.Cluster

/-- A round over the static nodes is made of events. -/
theorem Tracker.exists_run_probeRound (t : Tracker) (now : Nat) (alive : StaticNode → Bool)
    (nodes : List StaticNode) :
    ∃ events, (t.probeRound now alive nodes).1 = t.run events ∧ ∀ e ∈ events, e.1 = now :=
  ⟨_, t.probeRound_eq_feed now alive nodes, by simp⟩

namespace MembershipSession

variable {s : MembershipSession} {t : MembershipTask}

/-! ## Runs of tasks -/

/-- A run of a task is made of events of its time. -/
theorem exists_run_runTask (s : MembershipSession) (t : MembershipTask) :
    ∃ events, (s.runTask t).tracker = s.tracker.run events ∧ ∀ e ∈ events, e.1 = t.due := by
  obtain ⟨number, job, period, due, order⟩ := t
  cases job with
  | sweep => exact ⟨[(due, .sweep)], rfl, by simp⟩
  | probe nodes => exact s.tracker.exists_run_probeRound due _ nodes

theorem tracker_runTask_of_sweep (hjob : t.job = .sweep) :
    (s.runTask t).tracker = (s.tracker.sweep t.due).1 := by
  obtain ⟨number, job, period, due, order⟩ := t
  subst hjob
  rfl

/-! ## Operations -/

/-- Every operation takes its time and is made of events within that time. -/
theorem Settled.exists_run_step (h : s.Settled) (op : Step) :
    s.now ≤ (s.step op).now ∧ ∃ events, (s.step op).tracker = s.tracker.run events ∧
      ∀ e ∈ events, s.now ≤ e.1 ∧ e.1 ≤ (s.step op).now := by
  -- All operations but one take no time.
  have hatOnce : ∀ (u : MembershipSession) (events : List (Nat × TrackerEvent)), u.now = s.now →
      u.tracker = s.tracker.run events → (∀ e ∈ events, e.1 = s.now) →
      s.now ≤ u.now ∧ ∃ events, u.tracker = s.tracker.run events ∧
        ∀ e ∈ events, s.now ≤ e.1 ∧ e.1 ≤ u.now := by
    intro u events hnow htracker hevents
    refine ⟨Nat.le_of_eq hnow.symm, events, htracker, fun e he => ?_⟩
    have := hevents e he
    omega
  cases op with
  | event e => exact hatOnce _ [(s.now, e)] rfl rfl (by simp)
  | receive m =>
      simp only [MembershipSession.step, receive]
      split
      · rename_i m
        split
        · exact hatOnce _ [(s.now, .message m)] rfl rfl (by simp)
        · exact hatOnce _ [] rfl rfl (by simp)
      · exact hatOnce _ [] rfl rfl (by simp)
  | probe nodes =>
      obtain ⟨events, htracker, hnow⟩ := s.tracker.exists_run_probeRound s.now s.isAlive nodes
      exact hatOnce _ events rfl htracker hnow
  | startSweep => exact hatOnce _ [] (now_stopTask _ _) (tracker_stopTask _ _) (by simp)
  | stopSweep => exact hatOnce _ [] (now_stopTask _ _) (tracker_stopTask _ _) (by simp)
  | startProber nodes interval => exact hatOnce _ [] rfl rfl (by simp)
  | stopProber => exact hatOnce _ [] (now_stopTask _ _) (tracker_stopTask _ _) (by simp)
  | stopTimers => exact hatOnce _ [] rfl rfl (by simp)
  | rescript script => exact hatOnce _ [] rfl rfl (by simp)
  | readEvents => exact hatOnce _ [] rfl rfl (by simp)
  | advance ms =>
      have hrun : ∀ (u : MembershipSession) (t : MembershipTask),
          (s.now ≤ u.now ∧ ∃ events, u.tracker = s.tracker.run events ∧
            ∀ e ∈ events, s.now ≤ e.1 ∧ e.1 ≤ u.now) →
          t ∈ u.tasks → u.DueFrom t.due → u.now ≤ t.due →
          s.now ≤ (u.runTask t).now ∧ ∃ events, (u.runTask t).tracker = s.tracker.run events ∧
            ∀ e ∈ events, s.now ≤ e.1 ∧ e.1 ≤ (u.runTask t).now := by
        intro u t hreached _ _ hdue
        obtain ⟨hnow, events, htracker, hwithin⟩ := hreached
        obtain ⟨more, hmore, hthen⟩ := u.exists_run_runTask t
        rw [now_runTask]
        refine ⟨by omega, events ++ more, ?_, ?_⟩
        · rw [hmore, htracker, Tracker.run_append]
        · intro e he
          rcases List.mem_append.mp he with he | he
          · have := hwithin e he
            omega
          · rw [hthen e he]
            omega
      obtain ⟨u, hu, ⟨hnow, events, htracker, hwithin⟩, -, hlimit, -⟩ :=
        advance_induction hrun h.toPunctual ⟨Nat.le_refl _, [], rfl, by simp⟩ h.dueFrom ms
      simp only [MembershipSession.step]
      rw [hu]
      refine ⟨Nat.le_add_right _ _, events, htracker, fun e he => ?_⟩
      have := hwithin e he
      dsimp only
      omega

/-- **A session changes its tracker by events alone**, in the time that it takes. -/
theorem Settled.exists_run (h : s.Settled) (ops : List Step) :
    s.now ≤ (s.run ops).now ∧ ∃ events, (s.run ops).tracker = s.tracker.run events ∧
      ∀ e ∈ events, e.1 ≤ (s.run ops).now := by
  induction ops generalizing s with
  | nil => exact ⟨Nat.le_refl _, [], rfl, by simp⟩
  | cons op rest ih =>
      obtain ⟨hnow, events, hfirst, hwithin⟩ := h.exists_run_step op
      obtain ⟨hlater, more, hmore, hthen⟩ := ih (h.step op)
      have hlast : (s.run (op :: rest)).now = ((s.step op).run rest).now := rfl
      refine ⟨by omega, events ++ more, ?_, fun e he => ?_⟩
      · rw [Tracker.run_append, ← hfirst]
        exact hmore
      · rcases List.mem_append.mp he with he | he
        · have := hwithin e he
          omega
        · exact hthen e he

end MembershipSession

end InferenceRouting.Cluster
