import InferenceRouting.Proofs.Pool.Turnover

/-!
# The gauges of a pool

A pool sets its gauges to the connections in use and the idle ones when a caller gets a connection
or gives one back, when one has been opened for a sweep, when the probes of a sweep have been
applied, and when it is shut down (`PoolRun.publishes`).  Nothing else changes how many are in use,
but two operations close idle connections and leave the gauges as they are: an acquisition that
closes one to another address before it opens its own, and the first part of a sweep.

Each of them goes on to something that sets the gauges, unless the connection cannot be opened or
the caller or the sweep is given up.  `run_gauges_overlook` says that this is all that comes between
the gauges and the counts: at every moment of a run the first gauge is the number of connections in
use, and the second that of the idle ones and of those closed since it was set.
-/

namespace InferenceRouting

namespace Pool

variable {κ : Type} {p q : Pool κ} {n : Nat}

/-- The gauges show the present counts. -/
def Shown (p : Pool κ) : Prop :=
  p.meters.gauges = some (p.activeCount, p.slots.length - p.activeCount)

/-- The first gauge shows the connections in use, and the second the idle ones and those that have
been overlooked. -/
def Lags (p : Pool κ) (overlooked : Option Nat) : Prop :=
  p.meters.gauges = overlooked.map fun n => (p.activeCount, p.slots.length - p.activeCount + n)

/-- One pool comes from another by closing `n` idle connections, each of which is counted as
evicted, without setting the gauges. -/
structure Silent (p : Pool κ) (n : Nat) (q : Pool κ) : Prop where
  gauges : q.meters.gauges = p.meters.gauges
  active : q.activeCount = p.activeCount
  evictions : q.evictions = p.evictions + n
  slots : q.slots.length + n = p.slots.length

namespace Silent

/-- Where the connections and the counts of them stay, the gauges may. -/
theorem same (h : (q.slots, q.meters.gauges, q.meters.evicted) =
    (p.slots, p.meters.gauges, p.meters.evicted)) : p.Silent 0 q := by
  simp only [Prod.mk.injEq] at h
  obtain ⟨hslots, hgauges, hevicted⟩ := h
  refine ⟨hgauges, ?_, ?_, ?_⟩
  · simp only [activeCount, hslots]
  · simp only [Pool.evictions, hevicted, Nat.add_zero]
  · rw [hslots, Nat.add_zero]

theorem refl (p : Pool κ) : p.Silent 0 p :=
  same rfl

/-- A turnover in which nothing is taken in and the connections in use are kept. -/
theorem of_turns (h : p.Turns [] q) (hgauges : q.meters.gauges = p.meters.gauges)
    (hactive : q.activeCount = p.activeCount) : p.Silent (q.evictions - p.evictions) q := by
  have hcounted := h.counted
  have hfewer := h.stock.length_le
  simp only [List.append_nil, length_stock, List.length_nil, Nat.add_zero] at hcounted hfewer
  exact ⟨hgauges, hactive, by omega, by omega⟩

/-- The number of connections closed is read off the counts. -/
theorem exact (h : p.Silent n q) : p.Silent (q.evictions - p.evictions) q := by
  have hevictions := h.evictions
  have hn : q.evictions - p.evictions = n := by omega
  rw [hn]
  exact h

/-- What is closed is overlooked. -/
theorem lags (h : p.Silent n q) {overlooked : Option Nat} (hp : p.Lags overlooked) :
    q.Lags (overlooked.map (· + n)) := by
  have hslots := h.slots
  have hactive : q.activeCount ≤ q.slots.length := List.countP_le_length
  unfold Lags at hp ⊢
  rw [h.gauges, hp, Option.map_map]
  congr 1
  funext m
  simp only [Function.comp_apply, Prod.mk.injEq]
  rw [h.active] at hactive ⊢
  exact ⟨rfl, by omega⟩

end Silent

/-- Closing an idle connection leaves those in use. -/
theorem activeCount_evict {id : Nat} (hidle : ∀ s ∈ p.slots, s.id = id → s.inUse = false)
    (reason : EvictionReason) : (p.evict id reason).activeCount = p.activeCount := by
  simp only [activeCount, evict, removeSlot, countEviction, List.countP_filter]
  refine List.countP_congr fun s hs => ?_
  cases huse : s.inUse with
  | false => simp
  | true =>
      have hne : s.id ≠ id := fun hid => Bool.noConfusion (huse.symm.trans (hidle s hs hid))
      simp [hne]

/-- Changing a connection leaves those in use if it says nothing of that. -/
theorem activeCount_setSlot {id : Nat} {f : PoolSlot κ → PoolSlot κ}
    (hf : ∀ s, (f s).inUse = s.inUse) : (p.setSlot id f).activeCount = p.activeCount := by
  simp only [activeCount, setSlot, List.countP_map]
  refine List.countP_congr fun s _ => ?_
  by_cases hid : s.id = id
  · simp [hid, hf s]
  · simp [hid]

theorem grantRoom_silent (p : Pool κ) : p.Silent 0 p.grantRoom := by
  rw [grantRoom_eq]
  exact .same rfl

theorem dropReservation_silent (p : Pool κ) : p.Silent 0 p.dropReservation := by
  have hgrant := grantRoom_silent { p with pending := p.pending - 1 }
  exact ⟨hgrant.gauges, hgrant.active, hgrant.evictions, hgrant.slots⟩

theorem markUnhealthy_silent (p : Pool κ) (id : Nat) : p.Silent 0 (p.markUnhealthy id) :=
  ⟨rfl, activeCount_setSlot fun _ => rfl, rfl, List.length_map _⟩

theorem evict_silent (hn : (p.slots.map (·.id)).Nodup) {s : PoolSlot κ} (hs : s ∈ p.slots)
    (huse : s.inUse = false) (reason : EvictionReason) : p.Silent 1 (p.evict s.id reason) := by
  have hcounted := (evict_turns hn (List.mem_map_of_mem hs) reason).counted
  have hevicted : (p.evict s.id reason).evictions = p.evictions + 1 :=
    evictions_countEviction (p.removeSlot s.id) reason
  refine ⟨rfl, activeCount_evict ?_ reason, hevicted, ?_⟩
  · intro t ht hid
    rw [Keyed.eq_of_mem hn hs ht hid]
    exact huse
  · simp only [List.length_nil] at hcounted
    omega

/-- Retiring idle connections leaves the gauges and the connections in use. -/
theorem retire_keeps (now : Nat) {idle : List (PoolSlot κ)}
    (hidle : ∀ s ∈ idle, ∀ t ∈ p.slots, t.id = s.id → t.inUse = false) :
    (retire now p idle).1.meters.gauges = p.meters.gauges ∧
      (retire now p idle).1.activeCount = p.activeCount := by
  induction idle generalizing p with
  | nil => exact ⟨rfl, rfl⟩
  | cons s rest ih =>
      have hrest : ∀ u ∈ rest, ∀ t ∈ p.slots, t.id = u.id → t.inUse = false :=
        fun u hu => hidle u (List.mem_cons_of_mem _ hu)
      simp only [retire]
      split
      · have hkept := activeCount_evict (hidle s List.mem_cons_self) .idle
        obtain ⟨hgauges, hactive⟩ := ih (p := p.evict s.id .idle) fun u hu t ht =>
          hrest u hu t (List.mem_filter.mp ht).1
        exact ⟨hgauges, hactive.trans hkept⟩
      · exact ih hrest

/-- The first part of a sweep closes idle connections and leaves the gauges. -/
theorem beginSweep?_silent (hn : (p.slots.map (·.id)).Nodup) {now : Nat}
    {candidates : List (Lease κ)} (hq : p.beginSweep? now = some (q, candidates)) :
    p.Silent (q.evictions - p.evictions) q := by
  have hturns := beginSweep?_turns hn hq
  unfold beginSweep? at hq
  split at hq
  · cases hq
  · cases hq
    have hidle : ∀ s ∈ p.idleByAge, ∀ t ∈ p.slots, t.id = s.id → t.inUse = false := by
      intro s hs t ht hid
      obtain ⟨hmem, huse⟩ := of_mem_idleByAge hs
      rw [Keyed.eq_of_mem hn hmem ht hid]
      exact huse
    obtain ⟨hgauges, hactive⟩ := retire_keeps now hidle
    have hgrant := grantRoom_silent (retire now p p.idleByAge).1
    exact .of_turns hturns (hgrant.gauges.trans hgauges) (hgrant.active.trans hactive)

theorem shown_publish (p : Pool κ) : p.publish.Shown :=
  rfl

theorem shown_recordWait (p : Pool κ) (now started : Nat) : (p.recordWait now started).Shown :=
  rfl

/-- A connection that comes back to its place has the gauges set. -/
theorem shown_release {id : Nat} {s : PoolSlot κ} (hs : p.slot? id = some s) (now : Nat) :
    (p.release now id).Shown := by
  unfold release
  rw [hs]
  exact shown_publish _

/-- There is nothing to give back to a pool without the slot. -/
theorem release_of_slot?_eq_none {id : Nat} (hnone : p.slot? id = none) (now : Nat) :
    p.release now id = p := by
  unfold release
  rw [hnone]

end Pool

namespace PoolRun

variable {κ : Type} {r : PoolRun κ}

/-- The lease that a caller in the queue has been handed and has not picked up. -/
def leaseFor? (r : PoolRun κ) (caller : Nat) : Option (Lease κ) :=
  (r.ticketOf? caller).bind fun ticket => (r.pool.inbox.lookup ticket).bind Delivery.lease?

/-- Whether the gauges are set with an event: a caller is granted a connection or gives one back,
one has been opened for a sweep, the probes of a sweep are applied, or the pool is shut down. -/
def publishes (r : PoolRun κ) (now : Nat) (e : PoolEvent κ) : Bool :=
  match e with
  | .release caller => !r.pool.closed && (r.lease? caller).isSome
  | .abandon caller => !r.pool.closed && (r.leaseFor? caller).isSome
  | .probed id _ => r.sweeps.lookup id == some .probing
  | .warmed id result =>
    !r.pool.closed && result.isOk && r.sweeps.lookup id == some .opening
  | .shutdown => true
  | .flag _ | .sweep _ | .warm _ | .refill _ | .abandonSweep _ => false
  | e => (r.step now e).2.lease?.isSome

/-- The number of connections that an acquisition or the first part of a sweep closes. -/
def closes (r : PoolRun κ) (now : Nat) (e : PoolEvent κ) : Nat :=
  match e with
  | .acquire caller baseUrl => (r.acquire now caller baseUrl).1.pool.evictions - r.pool.evictions
  | .sweep id => (r.sweep now id).1.pool.evictions - r.pool.evictions
  | _ => 0

/-- The number of connections closed by acquisitions and sweeps since the gauges were last set,
after one more event; `none` as long as they have never been set. -/
def overlookedAfter (r : PoolRun κ) (overlooked : Option Nat) (now : Nat) (e : PoolEvent κ) :
    Option Nat :=
  if r.publishes now e then some 0 else overlooked.map (· + r.closes now e)

/-- The number of connections closed by acquisitions and sweeps since the gauges were last set,
after a run. -/
def overlookedSince (r : PoolRun κ) (overlooked : Option Nat) :
    List (Nat × PoolEvent κ) → Option Nat
  | [] => overlooked
  | e :: rest =>
    (r.step e.1 e.2).1.overlookedSince (r.overlookedAfter overlooked e.1 e.2) rest

/-- An event sets the gauges, or else closes `n` connections without setting them. -/
def Gauged (p : Pool κ) (published : Bool) (n : Nat) (q : Pool κ) : Prop :=
  if published then q.Shown else p.Silent n q

/-- Who receives a connection has the gauges set. -/
theorem receive_gauged (r : PoolRun κ) (now ticket : Nat) (a : Acquisition) (d : Delivery κ) :
    Gauged r.pool ((r.pickUp ticket).receive now a d).2.lease?.isSome 0
      ((r.pickUp ticket).receive now a d).1.pool := by
  cases d with
  | connection l => exact Pool.shown_recordWait _ now a.started
  | room => exact Pool.Silent.same rfl
  | closed => exact Pool.Silent.same rfl

theorem acquire_gauged (h : r.Sound) (now caller : Nat) (baseUrl : Option String) :
    ∃ n, Gauged r.pool (r.acquire now caller baseUrl).2.lease?.isSome n
      (r.acquire now caller baseUrl).1.pool := by
  unfold acquire
  dsimp only
  split
  · exact ⟨0, Pool.Silent.refl r.pool⟩
  split
  · exact ⟨0, Pool.Silent.refl r.pool⟩
  split
  · exact ⟨0, Pool.shown_recordWait _ now now⟩
  · split
    · exact ⟨0, Pool.Silent.same rfl⟩
    split
    · exact ⟨0, Pool.Silent.same rfl⟩
    split
    · rename_i s hother
      obtain ⟨hs, huse⟩ := Pool.of_idleElsewhere? hother
      have hevict := Pool.evict_silent h.settled.distinct hs huse .rebalance
      exact ⟨1, hevict.gauges, hevict.active, hevict.evictions, hevict.slots⟩
    · exact ⟨0, Pool.Silent.same rfl⟩

theorem opened_gauged (r : PoolRun κ) (now caller : Nat) (result : Except RoutingError κ) :
    Gauged r.pool (r.opened now caller result).2.lease?.isSome 0
      (r.opened now caller result).1.pool := by
  unfold opened
  split
  · rename_i a _
    split
    · rename_i connection _
      split
      · exact Pool.shown_recordWait _ now a.started
      · rename_i q e hq
        unfold Pool.commitLeased at hq
        dsimp only at hq
        split at hq
        · cases hq
          exact Pool.Silent.same rfl
        · cases hq
    · exact Pool.dropReservation_silent r.pool
    · exact Pool.Silent.refl r.pool
  · exact Pool.Silent.refl r.pool

theorem collect_gauged (r : PoolRun κ) (now caller : Nat) :
    Gauged r.pool (r.collect now caller).2.lease?.isSome 0 (r.collect now caller).1.pool := by
  rcases r.collect_cases now caller with ⟨-, heq⟩ | ⟨a, ticket, d, -, -, -, heq⟩
  · rw [heq]
    exact Pool.Silent.refl r.pool
  · rw [heq]
    exact r.receive_gauged now ticket a d

theorem expire_gauged (r : PoolRun κ) (now caller : Nat) :
    Gauged r.pool (r.expire now caller).2.lease?.isSome 0 (r.expire now caller).1.pool := by
  rcases r.expire_cases now caller with ⟨-, heq⟩ | ⟨a, ticket, -, -, ⟨d, -, heq⟩ | ⟨-, heq⟩⟩
  · rw [heq]
    exact Pool.Silent.refl r.pool
  · rw [heq]
    exact r.receive_gauged now ticket a d
  · rw [heq]
    exact Pool.Silent.same rfl

/-- A lease that somebody owns has the gauges set when it is given back to an open pool. -/
theorem release_gauged (h : r.Sound) {l : Lease κ} (hl : l ∈ r.owners)
    {q : Pool κ} (hslots : q.slots = r.pool.slots) (hmeters : q.meters = r.pool.meters)
    (now : Nat) : Gauged r.pool (!r.pool.closed) 0 (q.release now l.id) := by
  have hfound : q.slot? l.id = r.pool.slot? l.id := by
    unfold Pool.slot?
    rw [hslots]
  cases hc : r.pool.closed with
  | false =>
      obtain ⟨s, hs, -, rfl⟩ := h.settled.of_owned hc hl
      obtain ⟨pre, post, hsplit, hne⟩ := h.settled.exists_split hs
      exact Pool.shown_release (hfound.trans (Pool.slot?_eq hsplit hne)) now
  | true =>
      have hnone : q.slot? l.id = none := by
        rw [hfound, Pool.slot?, (h.settled.emptied hc).1]
        rfl
      rw [Pool.release_of_slot?_eq_none hnone]
      exact Pool.Silent.same (by rw [hslots, hmeters])

/-- What a caller in the queue had been handed goes back to the pool. -/
theorem reclaim_gauged (h : r.Sound) {ticket : Nat} {d : Delivery κ}
    (hd : r.pool.inbox.lookup ticket = some d) (now : Nat) :
    Gauged r.pool (!r.pool.closed && d.lease?.isSome) 0 ((r.pickUp ticket).pool.reclaim now d) := by
  cases d with
  | connection l =>
      have hhanded : l ∈ r.pool.handed :=
        List.mem_filterMap.mpr ⟨_, Keyed.mem_of_lookup hd, rfl⟩
      have hgauged := release_gauged h (q := (r.pickUp ticket).pool)
        (List.mem_append_right r.leases hhanded) rfl rfl now
      rwa [← Bool.and_true (!r.pool.closed)] at hgauged
  | room =>
      have hlease : (Delivery.room : Delivery κ).lease?.isSome = false := rfl
      have hback := Pool.dropReservation_silent (r.pickUp ticket).pool
      rw [hlease, Bool.and_false]
      exact ⟨hback.gauges, hback.active, hback.evictions, hback.slots⟩
  | closed =>
      have hlease : (Delivery.closed : Delivery κ).lease?.isSome = false := rfl
      rw [hlease, Bool.and_false]
      exact Pool.Silent.same rfl

theorem abandon_gauged (h : r.Sound) (now caller : Nat) :
    Gauged r.pool (!r.pool.closed && (r.leaseFor? caller).isSome) 0
      (r.abandon now caller).pool := by
  unfold abandon leaseFor?
  cases hfound : r.acquisition? caller with
  | none =>
      rw [ticketOf?_of_none hfound, Option.bind_none, Option.isSome_none, Bool.and_false]
      exact Pool.Silent.refl r.pool
  | some a =>
      dsimp only
      cases hphase : a.phase with
      | opening =>
          rw [ticketOf?_of_opening hfound hphase, Option.bind_none, Option.isSome_none,
            Bool.and_false]
          exact Pool.dropReservation_silent r.pool
      | queued ticket =>
          rw [ticketOf?_of_queued hfound hphase, Option.bind_some]
          cases hd : r.pool.inbox.lookup ticket with
          | none =>
              simp only [hd, Option.bind_none, Option.isSome_none, Bool.and_false]
              exact Pool.Silent.same rfl
          | some d =>
              simp only [hd, Option.bind_some]
              exact reclaim_gauged h hd now

theorem fill_silent (r : PoolRun κ) (id : Nat) : r.pool.Silent 0 (r.fill id).1.pool := by
  unfold fill
  split
  · rename_i q hq
    unfold Pool.reserveWarm? at hq
    split at hq
    · cases hq
    · cases hq
      exact Pool.Silent.same rfl
  · exact Pool.Silent.refl r.pool

theorem warmed_gauged (r : PoolRun κ) (now id : Nat) (result : Except RoutingError κ) :
    Gauged r.pool (!r.pool.closed && result.isOk && r.sweeps.lookup id == some .opening) 0
      (r.warmed now id result).1.pool := by
  unfold warmed
  cases result with
  | error e =>
      have hno : (!r.pool.closed && (Except.error e : Except RoutingError κ).isOk &&
          r.sweeps.lookup id == some .opening) = false := by
        rw [Except.isOk, Except.toBool, Bool.and_false, Bool.false_and]
      rw [hno]
      split
      · rename_i heq
        cases heq
      · exact Pool.dropReservation_silent r.pool
      · exact Pool.Silent.refl r.pool
  | ok connection =>
      split
      · rename_i c hphase heq
        cases heq
        rw [hphase]
        cases hc : r.pool.closed with
        | true =>
            simp only [Pool.commitIdle, hc, if_true]
            exact Pool.Silent.same rfl
        | false =>
            simp only [Pool.commitIdle, hc, Bool.false_eq_true, if_false]
            exact Pool.shown_publish _
      · rename_i hphase heq
        cases heq
      · rename_i hother _
        have hphase : (r.sweeps.lookup id == some SweepPhase.opening) = false :=
          beq_eq_false_iff_ne.mpr fun hphase => hother connection hphase rfl
        rw [hphase, Bool.and_false]
        exact Pool.Silent.refl r.pool

/-- **Step theorem.**  An event either sets the gauges, or leaves them and the connections in use
and closes idle connections, which only an acquisition or a sweep does. -/
theorem step_gauged (h : r.Sound) (now : Nat) (e : PoolEvent κ) :
    Gauged r.pool (r.publishes now e) (r.closes now e) (r.step now e).1.pool := by
  cases e with
  | acquire caller baseUrl =>
      obtain ⟨n, hn⟩ := acquire_gauged h now caller baseUrl
      simp only [publishes, closes, step]
      cases hgranted : (r.acquire now caller baseUrl).2.lease?.isSome with
      | true =>
          rw [hgranted] at hn
          exact hn
      | false =>
          rw [hgranted] at hn
          exact Pool.Silent.exact hn
  | opened caller result => exact r.opened_gauged now caller result
  | collect caller => exact r.collect_gauged now caller
  | expire caller => exact r.expire_gauged now caller
  | abandon caller => exact abandon_gauged h now caller
  | release caller =>
      simp only [publishes, closes, step, release]
      cases hl : r.lease? caller with
      | none =>
          rw [Option.isSome_none, Bool.and_false]
          exact Pool.Silent.refl r.pool
      | some l =>
          have hheld : l ∈ r.leases := List.mem_map_of_mem (Keyed.mem_of_lookup hl)
          rw [Option.isSome_some, Bool.and_true]
          exact release_gauged h (List.mem_append_left _ hheld) rfl rfl now
  | flag caller =>
      simp only [publishes, closes, step, flag]
      split
      · exact Pool.Silent.refl r.pool
      · exact Pool.markUnhealthy_silent r.pool _
  | sweep id =>
      simp only [publishes, closes, step, sweep]
      split
      · exact (Pool.Silent.refl r.pool).exact
      split
      · exact (Pool.Silent.refl r.pool).exact
      · rename_i q candidates hq
        exact Pool.beginSweep?_silent h.settled.distinct hq
  | warm id =>
      simp only [publishes, closes, step]
      split
      · exact Pool.Silent.refl r.pool
      · exact r.fill_silent id
  | probed id results =>
      simp only [publishes, closes, step, probed]
      split
      · rename_i hphase
        rw [hphase]
        exact Pool.shown_publish _
      · rename_i hother
        rw [beq_eq_false_iff_ne.mpr hother]
        exact Pool.Silent.refl r.pool
  | refill id =>
      simp only [publishes, closes, step, refill]
      split
      · exact r.fill_silent id
      · exact Pool.Silent.refl r.pool
  | warmed id result => exact r.warmed_gauged now id result
  | abandonSweep id =>
      simp only [publishes, closes, step, abandonSweep]
      split
      · exact Pool.dropReservation_silent r.pool
      · exact Pool.Silent.refl r.pool
      · exact Pool.Silent.refl r.pool
  | shutdown => exact Pool.shown_publish _

/-- What an event closes without setting the gauges is overlooked, and nothing else is. -/
theorem step_lags (h : r.Sound) {overlooked : Option Nat} (hlags : r.pool.Lags overlooked)
    (now : Nat) (e : PoolEvent κ) :
    (r.step now e).1.pool.Lags (r.overlookedAfter overlooked now e) := by
  have hstep := step_gauged h now e
  unfold overlookedAfter
  cases hpub : r.publishes now e with
  | true =>
      rw [hpub] at hstep
      exact hstep
  | false =>
      rw [hpub] at hstep
      exact Pool.Silent.lags hstep hlags

theorem run_lags (h : r.Sound) {overlooked : Option Nat} (hlags : r.pool.Lags overlooked)
    (events : List (Nat × PoolEvent κ)) :
    (r.run events).pool.Lags (r.overlookedSince overlooked events) := by
  induction events generalizing r overlooked with
  | nil => exact hlags
  | cons e rest ih => exact ih (step_sound h e.1 e.2) (step_lags h hlags e.1 e.2)

/-- **How far the gauges are off.**  At every moment of a run of a pool, once the gauges have been
set, the first shows the connections in use, and the second the idle ones and those that
acquisitions and sweeps have closed since: both are right as long as there are none of these. -/
theorem run_gauges_overlook (config : PoolConfig) (hmax : 1 ≤ config.maxSize)
    (hmin : config.minSize ≤ config.maxSize) :
    ∃ p : Pool κ, Pool.new config = .ok p ∧ ∀ (events : List (Nat × PoolEvent κ)) (now : Nat),
      let start : PoolRun κ := { pool := p }
      let r := start.run events
      let stats := r.pool.stats now
      let overlooked := start.overlookedSince none events
      r.pool.meters.gauges = overlooked.map (fun n => (stats.active, stats.idle + n)) ∧
        (r.pool.meters.gauges = some (stats.active, stats.idle) ↔ overlooked = some 0) := by
  have hp : Pool.new (κ := κ) config = .ok { config } := Pool.new_eq_ok hmax hmin
  refine ⟨{ config }, hp, fun events now => ?_⟩
  intro start r stats overlooked
  have hnew : start.pool.Lags none := rfl
  have hgauges : r.pool.meters.gauges = overlooked.map fun n => (stats.active, stats.idle + n) :=
    run_lags (sound_new hp) hnew events
  refine ⟨hgauges, ?_⟩
  rw [hgauges, Option.map_eq_some_iff]
  constructor
  · rintro ⟨n, hn, heq⟩
    have hsum : stats.idle + n = stats.idle := congrArg Prod.snd heq
    obtain rfl : n = 0 := by omega
    exact hn
  · intro hnone
    exact ⟨0, hnone, rfl⟩

/-- The first part of a sweep closes a connection that has been idle for too long, and the sweep is
given up: the second gauge is one too high. -/
theorem run_gauges_overlook_abandoned :
    ∃ p : Pool Unit, Pool.new { maxSize := 1, minSize := 0 } = .ok p ∧
      let start : PoolRun Unit := { pool := p }
      let events : List (Nat × PoolEvent Unit) :=
        [(0, .acquire 1 (some "a")), (0, .opened 1 (.ok ())), (1, .release 1),
          (70000, .sweep 1), (70000, .abandonSweep 1)]
      let stats := (start.run events).pool.stats 70000
      start.overlookedSince none events = some 1 ∧ stats.active = 0 ∧ stats.idle = 0 ∧
        (start.run events).pool.meters.gauges = some (stats.active, stats.idle + 1) := by
  obtain ⟨p, hp, hrun⟩ := run_gauges_overlook (κ := Unit) { maxSize := 1, minSize := 0 }
    (by decide) (by decide)
  have hgauges := (hrun [(0, .acquire 1 (some "a")), (0, .opened 1 (.ok ())), (1, .release 1),
    (70000, .sweep 1), (70000, .abandonSweep 1)] 70000).1
  cases hp
  have hone : ({ pool := { config := { maxSize := 1, minSize := 0 } } } :
      PoolRun Unit).overlookedSince none [(0, .acquire 1 (some "a")), (0, .opened 1 (.ok ())),
        (1, .release 1), (70000, .sweep 1), (70000, .abandonSweep 1)] = some 1 := by decide
  rw [hone] at hgauges
  exact ⟨_, rfl, hone, by decide, by decide, hgauges⟩

/-- The only connection is closed for a caller that wants another, and that one cannot be opened:
nothing is under way and nobody holds a connection, but the gauges still show an idle one. -/
theorem closed_still_shown :
    let start : PoolRun Unit := { pool := { config := { maxSize := 1, minSize := 0 } } }
    let r := start.run
      [(0, .acquire 1 (some "a")), (0, .opened 1 (.ok ())), (1, .release 1),
        (2, .acquire 2 (some "b")), (2, .opened 2 (.error (.callFailed none "connection refused")))]
    r.acquisitions = [] ∧ r.sweeps = [] ∧ r.holders.length = 0 ∧
      r.pool.meters.gauges = some (0, 1) ∧
      (r.pool.stats 2).active = 0 ∧ (r.pool.stats 2).idle = 0 := by
  decide

end PoolRun

end InferenceRouting
