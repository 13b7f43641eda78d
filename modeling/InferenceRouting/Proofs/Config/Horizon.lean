import InferenceRouting.Background.Scheduler
import InferenceRouting.Config.Layers
import InferenceRouting.Proofs.Breaker.CoolDown
import InferenceRouting.Proofs.Credential.Choice
import Mathlib.Algebra.Order.Ring.Nat

/-!
# How far the clock reaches

Times are added to durations that come from a configuration: the end of a cool-down, the end of the
cooling of a slot, the first run of a periodic task.  An instant of the clock has room for whole
seconds below 2^63, and the clock is followed up to 2^62 seconds (`Clock.horizon`).  The other half
is left for the durations: one may be added at every time up to the horizon exactly when it is
shorter than the horizon is far (`Clock.isInstant_horizon_add`).

For each part that adds a duration, what is asked of it (`Safe`, `CanRepeat`) quantifies over all
its runs up to the horizon, and is shown to come to a bound on that duration.  The validation of a
configuration looks at none of these bounds; `Config.safe_iff_of_validate` says which it would have
to look at, beside what it does look at.
-/

namespace InferenceRouting

namespace Clock

/-- The last time that is followed. -/
def horizon : Nat := 2 ^ 62 * ticksPerSecond

/-- Whether a time is an instant: its whole seconds have room in a signed word of 64 bits. -/
def IsInstant (t : Nat) : Prop :=
  t / ticksPerSecond < 2 ^ 63

instance (t : Nat) : Decidable (IsInstant t) :=
  inferInstanceAs (Decidable (t / ticksPerSecond < 2 ^ 63))

variable {span t : Nat}

theorem IsInstant.mono {s : Nat} (h : IsInstant t) (hle : s ≤ t) : IsInstant s :=
  Nat.lt_of_le_of_lt (Nat.div_le_div_right hle) h

/-- The durations that can be added to the last time that is followed. -/
theorem isInstant_horizon_add (span : Nat) : IsInstant (horizon + span) ↔ span < horizon := by
  unfold IsInstant horizon ticksPerSecond
  omega

/-- A duration that can be added to the last time can be added to every other. -/
theorem isInstant_add (ht : t ≤ horizon) (hspan : span < horizon) : IsInstant (t + span) :=
  ((isInstant_horizon_add span).mpr hspan).mono (Nat.add_le_add_right ht span)

/-- What is published of a span is the span, if it has room. -/
theorem published_eq_self_iff : published span = span ↔ span < UInt64.size :=
  Nat.mod_eq_iff_lt (by decide)

end Clock

/-! ## The cool-down of a breaker -/

namespace BreakerRun

variable {α : Type} {r : BreakerRun}

/-- An opening is noted with the time it happens at. -/
theorem noteOpening_le {since : Option Nat} {last now : Nat} (h : ∀ t, since = some t → t ≤ last)
    (hlast : last ≤ now) (e : BreakerEvent α) :
    ∀ t, r.noteOpening since now e = some t → t ≤ now := by
  intro t ht
  by_cases htrip : e = .trip
  · subst htrip
    exact Nat.le_of_eq (Option.some.inj ht).symm
  by_cases hreset : e = .reset
  · subst hreset
    cases ht
  rw [noteOpening_of_other htrip hreset] at ht
  split at ht
  · exact Nat.le_of_eq (Option.some.inj ht).symm
  · exact Nat.le_trans (h t ht) hlast

/-- The last opening is in the past. -/
theorem lastOpening_le {since : Option Nat} {last now : Nat} (h : ∀ t, since = some t → t ≤ last)
    (events : List (Nat × BreakerEvent α))
    (horder : (last :: (events.map (·.1) ++ [now])).Pairwise (· ≤ ·)) :
    ∀ t, r.lastOpening since events = some t → t ≤ now := by
  induction events generalizing r since last with
  | nil =>
      intro t ht
      exact Nat.le_trans (h t ht) ((List.pairwise_cons.mp horder).1 now (by simp))
  | cons e rest ih =>
      obtain ⟨hlast, horder'⟩ := List.pairwise_cons.mp horder
      exact ih (noteOpening_le h (hlast e.1 (by simp)) e.2) horder'

end BreakerRun

namespace BreakerConfig

variable {config : BreakerConfig} {b : Breaker} {now : Nat}

/-- Whether a breaker so tuned can be found at `now`, after some events in the order of their
times. -/
def Reaches (config : BreakerConfig) (now : Nat) (b : Breaker) : Prop :=
  ∃ (α : Type) (name : String) (timersEnabled : Bool) (events : List (Nat × BreakerEvent α)),
    (events.map Prod.fst ++ [now]).Pairwise (· ≤ ·) ∧
      b = ((BreakerRun.new name config timersEnabled).run events).breaker

/-- What is asked of the times of a breaker: every end of a cool-down is an instant, and the report
on an open circuit tells how long it still lasts. -/
structure Safe (config : BreakerConfig) : Prop where
  ends : ∀ now ≤ Clock.horizon, ∀ b, config.Reaches now b → b.state = .open →
    ∀ opened, b.openedAt = some opened → Clock.IsInstant (opened + config.resetTimeout)
  told : ∀ now ≤ Clock.horizon, ∀ b, config.Reaches now b → (b.report now).2.state = .open →
    ∃ opened, b.openedAt = some opened ∧
      (b.report now).2.retryAfterMs = some (opened + config.resetTimeout - now)

theorem Reaches.config_eq (h : config.Reaches now b) : b.config = config := by
  obtain ⟨α, name, timersEnabled, events, -, rfl⟩ := h
  exact (BreakerRun.run_settings _ events).2

/-- An open circuit has been open since a time that has come. -/
theorem Reaches.exists_openedAt (h : config.Reaches now b) (hopen : b.state = .open) :
    ∃ opened ≤ now, b.openedAt = some opened := by
  obtain ⟨α, name, timersEnabled, events, horder, rfl⟩ := h
  let start := BreakerRun.new name config timersEnabled
  have horder' : (0 :: (events.map (·.1) ++ [now])).Pairwise (· ≤ ·) :=
    List.pairwise_cons.mpr ⟨fun _ _ => Nat.zero_le _, horder⟩
  have hnew : start.Follows none 0 :=
    ⟨fun _ => by simp [start, BreakerRun.new, Breaker.new], fun t ht => (by cases ht)⟩
  have hfollows :=
    BreakerRun.run_follows (BreakerRun.dated_new name config timersEnabled) hnew events horder'
  have hnever : ∀ t, (none : Option Nat) = some t → t ≤ 0 := fun t ht => (by cases ht)
  have hpast := BreakerRun.lastOpening_le (r := start) hnever events horder'
  cases hlast : start.lastOpening none events with
  | none => exact absurd hopen (hfollows.never hlast)
  | some opened =>
      rcases hfollows.opened opened hlast with ⟨-, hopened⟩ | ⟨hne, -⟩
      · exact ⟨opened, hpast opened hlast, hopened⟩
      · exact absurd hopen hne

/-- The report on an open circuit tells how long the cool-down still lasts, as far as there is
room. -/
theorem report_of_open (hopen : (b.report now).2.state = .open) :
    b.state = .open ∧ ∀ opened, b.openedAt = some opened → (b.report now).2.retryAfterMs =
      some (Clock.published (opened + b.config.resetTimeout - now)) := by
  have hstate : (b.refresh now).state = .open := hopen
  by_cases hover : b.Overdue now
  · rw [Breaker.refresh_of_overdue hover, Breaker.toHalfOpen_eq] at hstate
    cases hstate
  · rw [Breaker.refresh_of_not_overdue hover] at hstate
    refine ⟨hstate, fun opened hopened => ?_⟩
    simp only [Breaker.report, Breaker.refresh_of_not_overdue hover, Breaker.prune, hstate, hopened]

/-- A breaker is tripped as soon as it is made, and asked at once. -/
theorem reaches_tripped (config : BreakerConfig) (now : Nat) :
    config.Reaches now ((Breaker.new "a" config true).trip now) :=
  ⟨Unit, "a", true, [(now, .trip)], by simp, rfl⟩

/-- The whole of the cool-down is still to come then. -/
theorem report_tripped (hpos : 0 < config.resetTimeout) (now : Nat) :
    let b := (Breaker.new "a" config true).trip now
    b.openedAt = some now ∧ (b.report now).2.state = .open ∧
      (b.report now).2.retryAfterMs = some (Clock.published config.resetTimeout) := by
  intro b
  have hb : b = (Breaker.new "a" config true).toOpen now := rfl
  rw [Breaker.toOpen_eq] at hb
  have hconfig : b.config = config := by rw [hb]; rfl
  have hopened : b.openedAt = some now := by rw [hb]
  have hearly : ¬b.Overdue now := by
    rintro ⟨-, opened, hopened', hdue⟩
    obtain rfl : now = opened := Option.some.inj (hopened.symm.trans hopened')
    rw [hconfig] at hdue
    omega
  have hopen : (b.report now).2.state = .open := by
    show (b.refresh now).state = .open
    rw [Breaker.refresh_of_not_overdue hearly, hb]
  refine ⟨hopened, hopen, ?_⟩
  rw [(report_of_open hopen).2 now hopened, hconfig, Nat.add_sub_cancel_left]

/-- **The times of a breaker.**  They stay within the clock exactly when the cool-down can be
published; then it can be added to every time as well. -/
theorem safe_iff : config.Safe ↔ config.resetTimeout < UInt64.size := by
  constructor
  · intro h
    by_contra hlong
    have hpos : 0 < config.resetTimeout := Nat.lt_of_lt_of_le (by decide) (Nat.le_of_not_lt hlong)
    obtain ⟨hopened, hopen, htold⟩ := report_tripped hpos 0
    obtain ⟨opened, hopened', htold'⟩ := h.told 0 (Nat.zero_le _) _ (reaches_tripped config 0) hopen
    obtain rfl : 0 = opened := Option.some.inj (hopened.symm.trans hopened')
    have hspan : Clock.published config.resetTimeout = 0 + config.resetTimeout - 0 :=
      Option.some.inj (htold.symm.trans htold')
    exact hlong (Clock.published_eq_self_iff.mp (by omega))
  · intro hshort
    refine ⟨fun now hnow b hb hopen opened hopened => ?_, fun now hnow b hb hopen => ?_⟩
    · obtain ⟨opened', hle, hopened'⟩ := hb.exists_openedAt hopen
      obtain rfl : opened = opened' := Option.some.inj (hopened.symm.trans hopened')
      have hspan : config.resetTimeout < Clock.horizon := Nat.lt_trans hshort (by decide)
      exact Clock.isInstant_add (Nat.le_trans hle hnow) hspan
    · obtain ⟨hstate, htold⟩ := report_of_open hopen
      obtain ⟨opened, hle, hopened⟩ := hb.exists_openedAt hstate
      have hroom : opened + config.resetTimeout - now < UInt64.size := by omega
      refine ⟨opened, hopened, ?_⟩
      rw [htold opened hopened, hb.config_eq, Clock.published_eq_self_iff.mpr hroom]

end BreakerConfig

/-! ## The cooling of a slot -/

namespace Credential.RotationConfig

variable {config : RotationConfig} {r : Rotation} {now : Nat}

/-- Whether a rotation so tuned can be found at `now`, after some events in the order of their
times. -/
def Reaches (config : RotationConfig) (now : Nat) (r : Rotation) : Prop :=
  ∃ (slots : List Slot) (events : List (Nat × RotationEvent)),
    (events.map Prod.fst ++ [now]).Pairwise (· ≤ ·) ∧ r = (Rotation.new slots config).run events

/-- What is asked of the times of a rotation: the cooling of every slot ends at an instant. -/
def Safe (config : RotationConfig) : Prop :=
  ∀ now ≤ Clock.horizon, ∀ r, config.Reaches now r →
    ∀ i t, r.coolingEnd? i = some t → Clock.IsInstant t

/-- **The times of a rotation.**  They stay within the clock exactly when the cooldown can be added
to the last time. -/
theorem safe_iff : config.Safe ↔ config.cooldown < Clock.horizon := by
  constructor
  · intro h
    let slot : Slot := ⟨⟨""⟩, none, .config, 1⟩
    let events : List (Nat × RotationEvent) := [(Clock.horizon, .outcome 0 true)]
    have hend : ((Rotation.new [slot] config).run events).coolingEnd? 0 =
        some (Clock.horizon + config.cooldown) := rfl
    exact (Clock.isInstant_horizon_add _).mp
      (h Clock.horizon (Nat.le_refl _) _ ⟨[slot], events, by simp [events], rfl⟩ 0 _ hend)
  · rintro hshort now hnow r ⟨slots, events, horder, rfl⟩ i t ht
    obtain ⟨hpast, -, hconfig, -⟩ := Rotation.run_past slots config events horder
    obtain ⟨f, hf, rfl⟩ := Option.map_eq_some_iff.mp ht
    rw [hconfig]
    exact Clock.isInstant_add (Nat.le_trans (hpast.past i f hf) hnow) hshort

end Credential.RotationConfig

/-! ## Periodic tasks -/

namespace Background

variable {period busy limit last due free : Nat} {t : Task}

/-- A periodic task that runs up to a limit goes on to wait for its next run, which is at most a
period after the last time there is. -/
theorem Task.waits_runTo (hplan : t.plan = .every period busy) (hphase : t.phase = .waiting due free)
    (hlimit : limit ≤ last) (hdue : due ≤ last + period) (fuel : Nat) :
    ∃ due' free', (t.runTo fuel limit).phase = .waiting due' free' ∧ due' ≤ last + period := by
  induction fuel generalizing t due free with
  | zero => exact ⟨due, free, hphase, hdue⟩
  | succ fuel ih =>
      have hnext : t.nextRun? = some (max due free) := by rw [Task.nextRun?, hphase]
      simp only [Task.runTo, hnext]
      split
      · rename_i hle
        have hrun : t.run (max due free) =
            { t with
              phase := .waiting (Interval.next period due (max due free)) (max due free + busy)
              runs := max due free :: t.runs } := by
          rw [Task.run, hphase, hplan]
          rfl
        have hsoon : Interval.next period due (max due free) ≤ max due free + period :=
          Interval.next_le (Nat.le_max_left due free)
        rw [hrun]
        exact ih hplan rfl (by omega)
      · exact ⟨due, free, hphase, hdue⟩

/-- What is asked of a period: a task scheduled with it, at any time and in any scope that has not
ended, runs at an instant, and after each run up to the horizon waits for another. -/
def CanRepeat (period : Nat) : Prop :=
  ∀ (s : Scheduler) (x : Scope) (busy : Nat), s.now ≤ Clock.horizon → s.scopes.isEnded x = false →
    ∃ id t, (s.schedule x (.every period busy) period).2 = some id ∧
      (s.schedule x (.every period busy) period).1.tasks = s.tasks ++ [(id, t)] ∧
      ∀ fuel, ∀ limit ≤ Clock.horizon, ∃ due free,
        (t.runTo fuel limit).phase = .waiting due free ∧ Clock.IsInstant due

/-- What scheduling adds to the tasks. -/
theorem Scheduler.schedule_eq {s : Scheduler} {x : Scope} (h : s.scopes.isEnded x = false)
    (plan : Plan) (delay : Nat) :
    (s.schedule x plan delay).2 = some s.nextTask ∧ (s.schedule x plan delay).1.tasks = s.tasks ++
      [(s.nextTask, ⟨(s.scopes.enter (some x)).2, plan, firstPhase plan s.now delay, []⟩)] := by
  simp [schedule, h]

/-- **The periods of tasks.**  A task can be repeated exactly with a period that is not zero and can
be added to the last time. -/
theorem canRepeat_iff : CanRepeat period ↔ period ≠ 0 ∧ period < Clock.horizon := by
  constructor
  · intro h
    obtain ⟨id, t, -, htasks, hwaits⟩ :=
      h { now := Clock.horizon } ⟨0, []⟩ 0 (Nat.le_refl _) rfl
    obtain ⟨-, htasks'⟩ := Scheduler.schedule_eq (s := { now := Clock.horizon }) (x := ⟨0, []⟩)
      rfl (.every period 0) period
    rw [htasks'] at htasks
    obtain ⟨due, free, hphase, hdue⟩ := hwaits 0 0 (Nat.zero_le _)
    simp only [List.nil_append, List.cons.injEq, Prod.mk.injEq, and_true] at htasks
    rw [← htasks.2] at hphase
    cases period with
    | zero => cases hphase
    | succ p =>
        obtain ⟨rfl, -⟩ := Phase.waiting.inj hphase
        exact ⟨Nat.succ_ne_zero p, (Clock.isInstant_horizon_add _).mp hdue⟩
  · rintro ⟨hpos, hshort⟩ s x busy hnow hopen
    obtain ⟨hid, htasks⟩ := Scheduler.schedule_eq hopen (.every period busy) period
    refine ⟨_, _, hid, htasks, fun fuel limit hlimit => ?_⟩
    have hfirst : Scheduler.firstPhase (.every period busy) s.now period =
        .waiting (s.now + period) s.now := by
      cases period with
      | zero => exact absurd rfl hpos
      | succ p => rfl
    let t : Task :=
      ⟨(s.scopes.enter (some x)).2, .every period busy, .waiting (s.now + period) s.now, []⟩
    obtain ⟨due, free, hwaits, hdue⟩ := Task.waits_runTo (t := t) rfl rfl hlimit
      (Nat.add_le_add_right hnow period) fuel
    rw [hfirst]
    exact ⟨due, free, hwaits, ((Clock.isInstant_horizon_add period).mpr hshort).mono hdue⟩

end Background

/-! ## Configurations -/

namespace Config

variable {c : Config}

/-- What is asked of a configuration for all times up to the horizon: a pool can be made, the sweeps
of the pool and of the fleet can be repeated, and the times of breakers and credentials stay within
the clock. -/
structure Safe (c : Config) : Prop where
  pool : ∀ κ : Type, ∃ p : Pool κ, Pool.new c.pool = .ok p
  health : Background.CanRepeat c.pool.healthInterval
  heartbeat : Background.CanRepeat c.cluster.membership.heartbeatInterval
  breaker : c.breaker.Safe
  rotation : c.credentials.rotation.Safe

/-- Nothing is at fault in an accepted configuration. -/
theorem checks_of_validate (h : c.validate = .ok ()) : ∀ check ∈ c.checks, check.1 = false := by
  unfold validate at h
  split at h
  · cases h
  · rename_i hnone
    intro check hcheck
    simpa using List.find?_eq_none.mp hnone check hcheck

/-- What the validation guards of the things asked for. -/
theorem guarded_of_validate (h : c.validate = .ok ()) :
    ¬(c.pool.maxSize = 0 ∨ c.pool.maxSize < c.pool.minSize) ∧ c.pool.healthInterval ≠ 0 ∧
      c.cluster.membership.heartbeatInterval ≠ 0 := by
  have hchecks := checks_of_validate h
  simp only [checks, List.cons_append, List.nil_append, List.forall_mem_cons, beq_eq_false_iff_ne,
    decide_eq_false_iff_not, Bool.or_eq_false_iff] at hchecks
  obtain ⟨hmax, hmin, -, ⟨-, hhealth⟩, -, -, hheartbeat, -⟩ := hchecks
  exact ⟨fun hsizing => hsizing.elim hmax hmin, hhealth, hheartbeat⟩

/-- **Accepted configurations.**  With an accepted configuration a pool can be made, and no task
has a period of zero.  Everything that is asked of it holds exactly when four durations are not too
long: the cool-down of a breaker can be published, and the others can be added to every time up to
the horizon. -/
theorem safe_iff_of_validate (c : Config) (h : c.validate = .ok ()) :
    (∀ κ : Type, ∃ p : Pool κ, Pool.new c.pool = .ok p) ∧
      c.pool.healthInterval ≠ 0 ∧ c.cluster.membership.heartbeatInterval ≠ 0 ∧
      (c.Safe ↔ c.breaker.resetTimeout < UInt64.size ∧
        c.credentials.rotation.cooldown < Clock.horizon ∧
        c.cluster.membership.heartbeatInterval < Clock.horizon ∧
        c.pool.healthInterval < Clock.horizon) := by
  obtain ⟨hsizing, hhealth, hheartbeat⟩ := guarded_of_validate h
  have hpool : ∀ κ : Type, ∃ p : Pool κ, Pool.new c.pool = .ok p :=
    fun κ => ⟨{ config := c.pool }, if_neg hsizing⟩
  refine ⟨hpool, hhealth, hheartbeat, fun hsafe => ?_, fun hshort => ?_⟩
  · exact ⟨BreakerConfig.safe_iff.mp hsafe.breaker,
      Credential.RotationConfig.safe_iff.mp hsafe.rotation,
      (Background.canRepeat_iff.mp hsafe.heartbeat).2, (Background.canRepeat_iff.mp hsafe.health).2⟩
  · obtain ⟨hreset, hcooldown, hbeat, hsweep⟩ := hshort
    exact {
      pool := hpool
      health := Background.canRepeat_iff.mpr ⟨hhealth, hsweep⟩
      heartbeat := Background.canRepeat_iff.mpr ⟨hheartbeat, hbeat⟩
      breaker := BreakerConfig.safe_iff.mpr hreset
      rotation := Credential.RotationConfig.safe_iff.mpr hcooldown }

/-- The longest durations with which nothing goes wrong. -/
def longest : Config where
  breaker := { resetTimeout := 18446744073709551615 }
  pool := { healthInterval := 4611686018427387903999 }
  cluster := { membership := {
    heartbeatInterval := 4611686018427387903999, nodeTimeout := 4611686018427387903999 } }
  credentials := { rotation := { cooldown := 4611686018427387903999 } }

theorem safe_iff_of_validate_longest : longest.validate = .ok () ∧ longest.Safe := by
  have hvalid : longest.validate = .ok () := by rfl
  exact ⟨hvalid, (safe_iff_of_validate longest hvalid).2.2.2.mpr (by decide)⟩

/-- A layer with a cool-down of as many seconds as a number in a document has room for. -/
def everlastingLayer : Setting :=
  .table [("breaker", .table [("reset_timeout", .ofNat 9223372036854775807)])]

/-- The defaults with a cool-down of as many seconds. -/
def everlasting : Config where
  breaker := { resetTimeout := 9223372036854775807000 }

/-- It is loaded and accepted.  A circuit tripped in the second second has no end of its cool-down,
and the report on it tells another time than what is left. -/
theorem everlasting_not_safe :
    let b := (Breaker.new "a" everlasting.breaker true).trip 1000
    ofLayers [everlastingLayer] = .ok everlasting ∧ ¬everlasting.Safe ∧
      everlasting.breaker.Reaches 1000 b ∧ b.state = .open ∧ b.openedAt = some 1000 ∧
      ¬Clock.IsInstant (1000 + everlasting.breaker.resetTimeout) ∧
      (b.report 1000).2.retryAfterMs ≠ some everlasting.breaker.resetTimeout := by
  refine ⟨by rfl, fun h => ?_, BreakerConfig.reaches_tripped _ 1000, by decide, by decide,
    by decide, by decide⟩
  exact absurd (BreakerConfig.safe_iff.mp h.breaker) (by decide)

end Config

end InferenceRouting
