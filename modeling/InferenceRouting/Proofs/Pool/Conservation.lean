import InferenceRouting.Proofs.Pool.Turnover

/-!
# No connection is lost

Two lists are kept beside a run: the connections that came into the pool (`received`) and those that
left it (`departed`), each by the id it had there.  While the pool is open the connections in it and
those that left make up those that came in, the counters are the lengths of the two lists, and so
the count of connections created is that of the evictions, over all reasons, and of the slots.
-/

namespace InferenceRouting.PoolRun

variable {κ : Type} {r : PoolRun κ} {e : PoolEvent κ}

/-- The connections that leave the pool with an event: it had them before, or they came in with the
event, and it has them no more. -/
def departures (r : PoolRun κ) (now : Nat) (e : PoolEvent κ) : List (Nat × κ) :=
  (r.pool.stock ++ r.arrivals e).filter fun c =>
    decide (c.1 ∉ (r.step now e).1.pool.stock.map (·.1))

/-- The connections that come into the pool in the course of some events. -/
def received (r : PoolRun κ) : List (Nat × PoolEvent κ) → List (Nat × κ)
  | [] => []
  | e :: rest => r.arrivals e.2 ++ (r.step e.1 e.2).1.received rest

/-- The connections that leave the pool in the course of some events. -/
def departed (r : PoolRun κ) : List (Nat × PoolEvent κ) → List (Nat × κ)
  | [] => []
  | e :: rest => r.departures e.1 e.2 ++ (r.step e.1 e.2).1.departed rest

/-- The ids of what is in the pool and of what comes in are distinct. -/
theorem distinct_arrivals (h : r.Sound) {q : Pool κ} (hturns : r.pool.Turns (r.arrivals e) q) :
    ((r.pool.stock ++ r.arrivals e).map (·.1)).Nodup := by
  have hnew : ((r.arrivals e).map (·.1)).Nodup := (r.arrivals_ordered e).imp Nat.ne_of_lt
  rw [List.map_append, Pool.stock_ids]
  refine List.nodup_append.mpr ⟨h.settled.distinct, hnew, ?_⟩
  intro id hid id' hid' heq
  obtain ⟨s, hs, rfl⟩ := List.mem_map.mp hid
  have hrecent := h.settled.recent s hs
  have hfresh := hturns.lt_of_mem hid'
  omega

/-- **Step theorem.**  What an event leaves in the pool and what leaves it make up what was there
and what came in; each connection that leaves is counted as evicted, and each that comes in as
created. -/
theorem step_conserves (h : r.Sound) (now : Nat) (e : PoolEvent κ)
    (hopen : (r.step now e).1.pool.closed = false) :
    ((r.step now e).1.pool.stock ++ r.departures now e).Perm (r.pool.stock ++ r.arrivals e) ∧
      (r.step now e).1.pool.meters.created = r.pool.meters.created + (r.arrivals e).length ∧
      (r.step now e).1.pool.evictions = r.pool.evictions + (r.departures now e).length := by
  have hturns := turns_of_open h now e hopen
  have hperm : ((r.step now e).1.pool.stock ++ r.departures now e).Perm
      (r.pool.stock ++ r.arrivals e) :=
    Keyed.perm_of_sublist (distinct_arrivals h hturns) hturns.stock
  refine ⟨hperm, hturns.created, ?_⟩
  have hlength := hperm.length_eq
  have hcounted := hturns.counted
  simp only [List.length_append, Pool.length_stock] at hlength
  omega

/-- **Run theorem.**  The same of any events after which the pool is open. -/
theorem run_conserves (h : r.Sound) (events : List (Nat × PoolEvent κ))
    (hopen : (r.run events).pool.closed = false) :
    ((r.run events).pool.stock ++ r.departed events).Perm (r.pool.stock ++ r.received events) ∧
      (r.run events).pool.meters.created = r.pool.meters.created + (r.received events).length ∧
      (r.run events).pool.evictions = r.pool.evictions + (r.departed events).length := by
  induction events generalizing r with
  | nil => exact ⟨.refl _, rfl, rfl⟩
  | cons e rest ih =>
      have hnext := step_sound h e.1 e.2
      obtain ⟨hperm, hcreated, hevicted⟩ := step_conserves h e.1 e.2 (open_of_run hnext rest hopen)
      obtain ⟨hperm', hcreated', hevicted'⟩ := ih hnext hopen
      refine ⟨?_, ?_, ?_⟩
      · let s := (r.step e.1 e.2).1
        -- what leaves with the first event goes behind what comes in later, and is then taken
        -- together with what that event leaves in the pool
        calc ((s.run rest).pool.stock ++ (r.departures e.1 e.2 ++ s.departed rest)).Perm
              ((s.run rest).pool.stock ++ (s.departed rest ++ r.departures e.1 e.2)) :=
                List.perm_append_comm.append_left _
          _ = (s.run rest).pool.stock ++ s.departed rest ++ r.departures e.1 e.2 :=
                (List.append_assoc ..).symm
          List.Perm _ (s.pool.stock ++ s.received rest ++ r.departures e.1 e.2) :=
                hperm'.append_right _
          _ = s.pool.stock ++ (s.received rest ++ r.departures e.1 e.2) :=
                List.append_assoc ..
          List.Perm _ (s.pool.stock ++ (r.departures e.1 e.2 ++ s.received rest)) :=
                List.perm_append_comm.append_left _
          _ = s.pool.stock ++ r.departures e.1 e.2 ++ s.received rest :=
                (List.append_assoc ..).symm
          List.Perm _ (r.pool.stock ++ r.arrivals e.2 ++ s.received rest) :=
                hperm.append_right _
          _ = r.pool.stock ++ (r.arrivals e.2 ++ s.received rest) := List.append_assoc ..
      · exact hcreated'.trans (by rw [hcreated, received, List.length_append, Nat.add_assoc])
      · exact hevicted'.trans (by rw [hevicted, departed, List.length_append, Nat.add_assoc])

/-- No id is given twice. -/
theorem received_ordered (h : r.Sound) (events : List (Nat × PoolEvent κ))
    (hopen : (r.run events).pool.closed = false) :
    ((r.received events).map (·.1)).Pairwise (· < ·) ∧
      ∀ c ∈ r.received events, r.pool.lastId < c.1 := by
  induction events generalizing r with
  | nil => exact ⟨.nil, fun c hc => absurd hc List.not_mem_nil⟩
  | cons e rest ih =>
      have hnext := step_sound h e.1 e.2
      have hturns := turns_of_open h e.1 e.2 (open_of_run hnext rest hopen)
      obtain ⟨hordered, hlater⟩ := ih hnext hopen
      refine ⟨?_, ?_⟩
      · rw [received, List.map_append]
        refine List.pairwise_append.mpr ⟨r.arrivals_ordered e.2, hordered, ?_⟩
        intro id hid id' hid'
        obtain ⟨c, hc, rfl⟩ := List.mem_map.mp hid
        obtain ⟨c', hc', rfl⟩ := List.mem_map.mp hid'
        exact Nat.lt_of_le_of_lt (hturns.fresh c hc).2 (hlater c' hc')
      · intro c hc
        rcases List.mem_append.mp hc with hc | hc
        · exact (hturns.fresh c hc).1
        · exact Nat.lt_of_le_of_lt hturns.lastId (hlater c hc)

/-- **Conservation of connections.**  As long as a pool is open, the count of connections created is
that of the evictions, over all reasons, and of the slots; and every connection that came in, under
an id no other one had, is either in the pool or among those that left, of which there are as many
as evictions. -/
theorem run_conserves_connections (config : PoolConfig) (hmax : 1 ≤ config.maxSize)
    (hmin : config.minSize ≤ config.maxSize) :
    ∃ p : Pool κ, Pool.new config = .ok p ∧ ∀ events : List (Nat × PoolEvent κ),
      let start : PoolRun κ := { pool := p }
      let r := start.run events
      r.pool.closed = false →
        r.pool.meters.created = r.pool.evictions + r.pool.slots.length ∧
          r.pool.meters.created = (start.received events).length ∧
          ((start.received events).map (·.1)).Nodup ∧
          (r.pool.stock ++ start.departed events).Perm (start.received events) ∧
          r.pool.evictions = (start.departed events).length := by
  have hp : Pool.new (κ := κ) config = .ok { config } := Pool.new_eq_ok hmax hmin
  refine ⟨{ config }, hp, fun events => ?_⟩
  intro start r hopen
  have h : start.Sound := sound_new hp
  obtain ⟨hperm, hcreated, hevicted⟩ := run_conserves h events hopen
  have hcreated : r.pool.meters.created = (start.received events).length :=
    hcreated.trans (Nat.zero_add _)
  have hevicted : r.pool.evictions = (start.departed events).length :=
    hevicted.trans (Nat.zero_add _)
  have hperm : (r.pool.stock ++ start.departed events).Perm (start.received events) := hperm
  refine ⟨?_, hcreated, ?_, hperm, hevicted⟩
  · have hlength := hperm.length_eq
    rw [List.length_append, Pool.length_stock] at hlength
    omega
  · exact (received_ordered h events hopen).1.imp Nat.ne_of_lt

/-- A pool of one place closes the idle connection to one address for a caller that wants another:
two have been created, one evicted, and one is in the pool. -/
theorem run_conserves_connections_rebalanced :
    ∃ p : Pool Unit, Pool.new { maxSize := 1, minSize := 0 } = .ok p ∧
      let start : PoolRun Unit := { pool := p }
      let events : List (Nat × PoolEvent Unit) :=
        [(0, .acquire 1 (some "a")), (0, .opened 1 (.ok ())), (1, .release 1),
          (2, .acquire 2 (some "b")), (2, .opened 2 (.ok ()))]
      (start.run events).pool.closed = false ∧
        (start.run events).pool.meters.created = 2 ∧ (start.run events).pool.evictions = 1 ∧
        (start.run events).pool.slots.length = 1 ∧ start.departed events = [(1, ())] ∧
        ((start.run events).pool.stock ++ start.departed events).Perm (start.received events) := by
  obtain ⟨p, hp, hrun⟩ := run_conserves_connections (κ := Unit) { maxSize := 1, minSize := 0 }
    (by decide) (by decide)
  have hconserved := hrun [(0, .acquire 1 (some "a")), (0, .opened 1 (.ok ())), (1, .release 1),
    (2, .acquire 2 (some "b")), (2, .opened 2 (.ok ()))]
  cases hp
  obtain ⟨-, -, -, hperm, -⟩ := hconserved (by decide)
  exact ⟨_, rfl, by decide, by decide, by decide, by decide, by decide, hperm⟩

end InferenceRouting.PoolRun
