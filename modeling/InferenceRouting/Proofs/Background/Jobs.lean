import InferenceRouting.Background.Course
import Mathlib.Algebra.Order.Ring.Nat
import Mathlib.Tactic.Ring

/-!
# Jobs that nothing cancels

A job that goes on undisturbed stands, at every instant, where its start and the clock put it
(`Job.task`), however the time was divided into steps on the way (`Job.settle_task`).
-/

namespace InferenceRouting.Background

namespace Task

variable {t : Task} {ended : Bool} {limit now : Nat}

theorem scope_run (t : Task) (now : Nat) : (t.run now).scope = t.scope := by
  unfold run
  split <;> rfl

theorem scope_runTo (fuel limit : Nat) (t : Task) : (t.runTo fuel limit).scope = t.scope := by
  induction fuel generalizing t with
  | zero => rfl
  | succ fuel ih =>
      unfold runTo
      split
      · split
        · exact (ih _).trans (scope_run t _)
        · rfl
      · rfl

/-- A task stays in its scope. -/
theorem scope_settle (ended : Bool) (limit : Nat) (t : Task) :
    (t.settle ended limit).scope = t.scope := by
  unfold settle
  split
  · split <;> rfl
  · exact scope_runTo _ limit t

/-- A task whose scope has ended does not run. -/
theorem runs_settle_ended (limit : Nat) (t : Task) : (t.settle true limit).runs = t.runs := by
  unfold settle
  rw [if_pos rfl]
  split <;> rfl

end Task

namespace Job

variable {own : Scope} {start now limit period n : Nat}

/-- The runs of a job up to an instant, the latest first. -/
def runs (start now : Nat) : Job → List Nat
  | .once delay => if start + delay ≤ now then [start + delay] else []
  | .every period =>
    ((List.range ((now - start) / period)).map fun k => start + (k + 1) * period).reverse

/-- A periodic job after some of its runs. -/
def beat (own : Scope) (start period n : Nat) : Task where
  scope := own
  plan := .every period 0
  phase := .waiting (start + (n + 1) * period) (start + n * period)
  runs := ((List.range n).map fun k => start + (k + 1) * period).reverse

/-- A job at an instant, if nothing has cancelled it. -/
def task (own : Scope) (start now : Nat) : Job → Task
  | .once delay =>
    { scope := own
      plan := .once
      phase := if start + delay ≤ now then .finished else .waiting (start + delay) start
      runs := (Job.once delay).runs start now }
  | .every 0 => { scope := own, plan := .every 0 0, phase := .finished }
  | .every (p + 1) => beat own start (p + 1) ((now - start) / (p + 1))

theorem scope_task (job : Job) (own : Scope) (start now : Nat) :
    (job.task own start now).scope = own := by
  cases job with
  | once delay => rfl
  | every period => cases period <;> rfl

theorem runs_task (job : Job) (own : Scope) (start now : Nat) :
    (job.task own start now).runs = job.runs start now := by
  cases job with
  | once delay => rfl
  | every period =>
      cases period with
      | zero => simp [task, runs]
      | succ p => rfl

/-- A job runs at the times at which it is due. -/
theorem mem_runs (job : Job) (h : start ≤ now) (t : Nat) :
    t ∈ job.runs start now ↔ job.Due start t ∧ t ≤ now := by
  cases job with
  | once delay =>
      simp only [runs, Due]
      split
      · simp only [List.mem_singleton]
        omega
      · simp only [List.not_mem_nil, false_iff]
        omega
  | every period =>
      simp only [runs, Due, List.mem_reverse, List.mem_map, List.mem_range]
      constructor
      · rintro ⟨k, hk, rfl⟩
        have hpos : 0 < period := by
          rcases Nat.eq_zero_or_pos period with rfl | hpos
          · simp at hk
          · exact hpos
        have hle := (Nat.le_div_iff_mul_le hpos).mp hk
        exact ⟨⟨hpos, k + 1, Nat.le_add_left 1 k, rfl⟩, by rw [Nat.succ_eq_add_one] at hle; omega⟩
      · rintro ⟨⟨hpos, k, hk, rfl⟩, hle⟩
        obtain ⟨k, rfl⟩ := Nat.exists_eq_add_of_le' hk
        refine ⟨k, (Nat.le_div_iff_mul_le hpos).mpr ?_, rfl⟩
        rw [Nat.succ_eq_add_one]
        omega

/-- A job runs once at each of its times. -/
theorem pairwise_runs (job : Job) (start now : Nat) :
    (job.runs start now).Pairwise (· > ·) := by
  cases job with
  | once delay =>
      simp only [runs]
      split
      · exact List.pairwise_singleton _ _
      · exact List.Pairwise.nil
  | every period =>
      simp only [runs]
      rw [List.pairwise_reverse, List.pairwise_map]
      rcases Nat.eq_zero_or_pos period with rfl | hpos
      · simp
      · refine (List.pairwise_lt_range).imp fun {i j} hij => ?_
        exact Nat.add_lt_add_left
          (Nat.mul_lt_mul_of_pos_right (Nat.add_lt_add_right hij 1) hpos) start

/-- The next run comes a period later. -/
theorem run_beat (own : Scope) (start period n : Nat) :
    (beat own start period n).run (start + (n + 1) * period) = beat own start period (n + 1) := by
  have hnext : start + (n + 1) * period + period = start + (n + 1 + 1) * period := by ring
  simp [beat, Task.run, Task.phaseAfter, Interval.next_self, hnext, List.range_succ]

theorem nextRun?_beat (own : Scope) (start period n : Nat) :
    (beat own start period n).nextRun? = some (start + (n + 1) * period) := by
  have hle : start + n * period ≤ start + (n + 1) * period :=
    Nat.add_le_add_left (Nat.mul_le_mul_right period (Nat.le_succ n)) start
  simp [beat, Task.nextRun?, hle]

/-- A periodic job goes on to its last run before the limit. -/
theorem runTo_beat (k fuel n : Nat) (hfuel : k ≤ fuel) (hle : start + (n + k) * period ≤ limit)
    (hlt : limit < start + (n + k + 1) * period) :
    (beat own start period n).runTo fuel limit = beat own start period (n + k) := by
  induction k generalizing fuel n with
  | zero =>
      cases fuel with
      | zero => rfl
      | succ fuel =>
          have hlate : ¬start + (n + 1) * period ≤ limit := Nat.not_le.mpr hlt
          simp only [Task.runTo, nextRun?_beat, if_neg hlate]
          rfl
  | succ k ih =>
      obtain ⟨fuel, rfl⟩ := Nat.exists_eq_add_of_le' hfuel
      have hcount : n + (k + 1) = n + 1 + k := by omega
      rw [hcount] at hle hlt ⊢
      have hdue : start + (n + 1) * period ≤ limit := by
        have := Nat.mul_le_mul_right period (Nat.le_add_right (n + 1) k)
        omega
      rw [← Nat.add_assoc, Task.runTo, nextRun?_beat]
      simp only [if_pos hdue]
      rw [run_beat]
      exact ih (fuel + k) (n + 1) (Nat.le_add_left k fuel) hle hlt

/-- A periodic job that nothing has cancelled has had all its runs up to the limit. -/
theorem settle_beat (hpos : 0 < period) (hn : n ≤ (limit - start) / period)
    (hstart : start ≤ limit) :
    (beat own start period n).settle false limit =
      beat own start period ((limit - start) / period) := by
  obtain ⟨k, hk⟩ := Nat.exists_eq_add_of_le hn
  have hmul := Nat.div_mul_le_self (limit - start) period
  have hsucc := Nat.lt_mul_div_succ (limit - start) hpos
  rw [Nat.mul_comm] at hsucc
  rw [hk] at hmul hsucc ⊢
  have hfuel : k ≤ (limit - (start + (n + 1) * period)) / period + 1 := by
    rw [← Nat.sub_sub, Nat.mul_comm (n + 1), Nat.sub_mul_div, hk]
    omega
  exact runTo_beat k _ n hfuel (by omega) (by omega)

/-- **Undisturbed jobs.**  A job that nothing has cancelled stands where its start and the clock put
it. -/
theorem settle_task (job : Job) (own : Scope) (hstart : start ≤ now) (hnow : now ≤ limit) :
    (job.task own start now).settle false limit = job.task own start limit := by
  cases job with
  | once delay =>
      by_cases hdone : start + delay ≤ now
      · have hdone' : start + delay ≤ limit := Nat.le_trans hdone hnow
        simp [task, runs, hdone, hdone', Task.settle, Task.fuelTo, Task.runTo, Task.nextRun?]
      · by_cases hdue : start + delay ≤ limit
        · simp [task, runs, hdone, hdue, Task.settle, Task.fuelTo, Task.runTo, Task.nextRun?,
            Task.run, Task.phaseAfter]
        · simp [task, runs, hdone, hdue, Task.settle, Task.fuelTo, Task.runTo, Task.nextRun?]
  | every period =>
      cases period with
      | zero => rfl
      | succ p =>
          exact settle_beat (Nat.succ_pos p)
            (Nat.div_le_div_right (Nat.sub_le_sub_right hnow start)) (Nat.le_trans hstart hnow)

/-- A job begins with nothing done. -/
theorem task_start (job : Job) (own : Scope) (start : Nat) :
    Task.settle false start
        { scope := own, plan := job.plan, phase := Scheduler.firstPhase job.plan start job.delay } =
      job.task own start start := by
  cases job with
  | once delay =>
      by_cases hdue : start + delay ≤ start
      · simp [task, runs, plan, Job.delay, hdue, Scheduler.firstPhase, Task.settle, Task.fuelTo,
          Task.runTo, Task.nextRun?, Task.run, Task.phaseAfter]
      · simp [task, runs, plan, Job.delay, hdue, Scheduler.firstPhase, Task.settle, Task.fuelTo,
          Task.runTo, Task.nextRun?]
  | every period =>
      cases period with
      | zero => rfl
      | succ p =>
          have hbegin : { scope := own, plan := (Job.every (p + 1)).plan, phase :=
              Scheduler.firstPhase (Job.every (p + 1)).plan start (p + 1) } =
              beat own start (p + 1) 0 := by
            simp [beat, plan, Scheduler.firstPhase]
          rw [Job.delay, hbegin]
          exact settle_beat (Nat.succ_pos p) (Nat.zero_le _) (Nat.le_refl start)

end Job

end InferenceRouting.Background
