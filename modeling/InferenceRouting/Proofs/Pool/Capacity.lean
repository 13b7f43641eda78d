import InferenceRouting.Proofs.Pool.Ownership

/-!
# The places of a pool

A pool never has more connections and reservations than it may hold.  Each reservation belongs to a
connection being opened or to room that was handed over, so none is given back twice and none is
left behind.  Callers wait only while every place is taken and every connection is in use.
-/

namespace InferenceRouting.PoolRun

variable {κ : Type} {r : PoolRun κ}

/-- With an event a reserved place is given back: a connection has been opened or could not be, or
somebody goes away that opens one or was handed room. -/
def GivesBack (r : PoolRun κ) : PoolEvent κ → Prop
  | .opened caller _ => ∃ a, r.acquisition? caller = some a ∧ a.phase = .opening
  | .abandon caller => ∃ a, r.acquisition? caller = some a ∧ (a.phase = .opening ∨
      ∃ ticket, a.phase = .queued ticket ∧ r.pool.inbox.lookup ticket = some .room)
  | .warmed id _ => r.sweeps.lookup id = some .opening
  | .abandonSweep id => r.sweeps.lookup id = some .opening
  | _ => False

/-- What is given back was reserved. -/
theorem Sound.pending_pos (h : r.Sound) {e : PoolEvent κ} (he : r.GivesBack e) :
    0 < r.pool.pending := by
  have hreserved := h.settled.reserved
  have hcaller {a : Acquisition} (ha : a ∈ r.acquisitions) (hphase : a.phase = .opening) :
      0 < r.pool.pending := by
    have := openings_finish_opening h.toAttended ha hphase
    omega
  have hsweep {id : Nat} (hphase : r.sweeps.lookup id = some .opening) : 0 < r.pool.pending := by
    have := openings_endSweep_opening h.toAttended hphase
    omega
  cases e with
  | opened caller result =>
      obtain ⟨a, hfound, hphase⟩ := he
      exact hcaller (mem_of_acquisition? hfound).1 hphase
  | abandon caller =>
      obtain ⟨a, hfound, hphase | ⟨ticket, -, hd⟩⟩ := he
      · exact hcaller (mem_of_acquisition? hfound).1 hphase
      · have hrooms : 0 < r.pool.rooms :=
          List.countP_pos_iff.mpr ⟨_, Keyed.mem_of_lookup hd, rfl⟩
        omega
  | warmed id result => exact hsweep he
  | abandonSweep id => exact hsweep he
  | _ => exact he.elim

/-- Nothing is reserved when nothing is under way. -/
theorem Sound.pending_eq_zero (h : r.Sound) (hacquisitions : r.acquisitions = [])
    (hsweeps : r.sweeps = []) : r.pool.pending = 0 := by
  have htickets : r.pool.tickets = [] := by
    have hwaiting := h.waiting
    simp only [tickets, hacquisitions, List.filterMap_nil] at hwaiting
    exact hwaiting.nil_eq.symm
  have hinbox : r.pool.inbox = [] := List.map_eq_nil_iff.mp (List.append_eq_nil_iff.mp htickets).2
  have hopenings : r.openings = 0 := by simp [openings, hacquisitions, hsweeps]
  have hrooms : r.pool.rooms = 0 := by simp [Pool.rooms, hinbox]
  have hreserved := h.settled.reserved
  omega

/-- A caller that waits and was handed nothing is in the queue. -/
theorem Attended.mem_waiters (h : r.Attended) {a : Acquisition} (ha : a ∈ r.acquisitions)
    {ticket : Nat} (hphase : a.phase = .queued ticket) (hd : r.pool.inbox.lookup ticket = none) :
    ∃ w ∈ r.pool.waiters, w.id = ticket := by
  have hin : ticket ∈ r.pool.tickets := h.waiting.mem_iff.mp (List.mem_filterMap.mpr
    ⟨a, ha, Acquisition.ticket?_of_queued hphase⟩)
  obtain ⟨pre, post, w, hw, hsplit, -⟩ := Pool.exists_queued h.distinct hin hd
  exact ⟨w, hsplit ▸ List.mem_append_right _ List.mem_cons_self, hw⟩

/-- **Places.**  Connections and reservations together are never more than the pool may hold.  The
reservations are those of the connections being opened and of the room that was handed over: a place
that is given back was reserved, and nothing is reserved when nothing is under way. -/
theorem run_accounts_for_places (config : PoolConfig) (hmax : 1 ≤ config.maxSize)
    (hmin : config.minSize ≤ config.maxSize) :
    ∃ p : Pool κ, Pool.new config = .ok p ∧ ∀ events : List (Nat × PoolEvent κ),
      let r := ({ pool := p } : PoolRun κ).run events
      r.pool.slots.length + r.pool.pending ≤ config.maxSize ∧
        r.pool.pending = r.openings + r.pool.rooms ∧
        (∀ e, r.GivesBack e → 0 < r.pool.pending) ∧
        (r.acquisitions = [] → r.sweeps = [] → r.pool.pending = 0) := by
  obtain ⟨p, hp, hrun⟩ := exists_run (κ := κ) config hmax hmin
  refine ⟨p, hp, fun events => ?_⟩
  obtain ⟨h, hconfig⟩ := hrun events
  refine ⟨?_, h.settled.reserved, fun e he => h.pending_pos he, h.pending_eq_zero⟩
  have hfits := h.settled.fits
  rw [hconfig] at hfits
  exact hfits

/-- Room handed over to the second of two callers, by a pool of one place, is reserved for it, and
is given back when this caller goes away. -/
theorem run_accounts_for_places_handed_over :
    ∃ p : Pool Unit, Pool.new { maxSize := 1, minSize := 0 } = .ok p ∧
      let r := ({ pool := p } : PoolRun Unit).run
        [(0, .acquire 1 none), (0, .acquire 2 none), (0, .abandon 1)]
      r.pool.slots.length + r.pool.pending ≤ 1 ∧ r.pool.rooms = 1 ∧ r.GivesBack (.abandon 2) ∧
        0 < r.pool.pending := by
  obtain ⟨p, hp, hrun⟩ := run_accounts_for_places (κ := Unit) { maxSize := 1, minSize := 0 }
    (by decide) (by decide)
  obtain ⟨hfits, -, hback, -⟩ := hrun
    [(0, .acquire 1 none), (0, .acquire 2 none), (0, .abandon 1)]
  cases hp
  have hgives : (({ pool := { config := { maxSize := 1, minSize := 0 } } } : PoolRun Unit).run
      [(0, .acquire 1 none), (0, .acquire 2 none), (0, .abandon 1)]).GivesBack (.abandon 2) :=
    ⟨_, rfl, .inr ⟨1, rfl, rfl⟩⟩
  exact ⟨_, rfl, hfits, rfl, hgives, hback _ hgives⟩

/-- **No lost wake-up.**  Whenever there is a queue the pool is open, every place is taken, and
every connection is in use; and so it is while any acquisition waits for its turn and was handed
nothing yet. -/
theorem run_waits_only_when_full (config : PoolConfig) (hmax : 1 ≤ config.maxSize)
    (hmin : config.minSize ≤ config.maxSize) :
    ∃ p : Pool κ, Pool.new config = .ok p ∧ ∀ events : List (Nat × PoolEvent κ),
      let r := ({ pool := p } : PoolRun κ).run events
      (r.pool.waiters ≠ [] ∨ (∃ a ∈ r.acquisitions, ∃ ticket, a.phase = .queued ticket ∧
          r.pool.inbox.lookup ticket = none) →
        r.pool.closed = false ∧ r.pool.slots.length + r.pool.pending = config.maxSize ∧
          ∀ s ∈ r.pool.slots, s.inUse = true) := by
  obtain ⟨p, hp, hrun⟩ := exists_run (κ := κ) config hmax hmin
  refine ⟨p, hp, fun events => ?_⟩
  obtain ⟨h, hconfig⟩ := hrun events
  intro r hwait
  have hwaiters : r.pool.waiters ≠ [] := by
    rcases hwait with hw | ⟨a, ha, ticket, hphase, hd⟩
    · exact hw
    · obtain ⟨w, hw, -⟩ := h.mem_waiters ha hphase hd
      exact List.ne_nil_of_mem hw
  refine ⟨?_, ?_, h.settled.busy hwaiters⟩
  · exact Bool.eq_false_iff.mpr fun hc => hwaiters (h.settled.emptied hc).2
  · have hfull := h.settled.full hwaiters
    rw [hconfig] at hfull
    exact hfull

/-- The second of two callers waits while a pool of one place opens a connection for the first. -/
theorem run_waits_only_when_full_second :
    ∃ p : Pool Unit, Pool.new { maxSize := 1, minSize := 0 } = .ok p ∧
      let r := ({ pool := p } : PoolRun Unit).run [(0, .acquire 1 none), (0, .acquire 2 none)]
      r.pool.waiters ≠ [] ∧ r.pool.closed = false ∧ r.pool.slots.length + r.pool.pending = 1 := by
  obtain ⟨p, hp, hrun⟩ := run_waits_only_when_full (κ := Unit) { maxSize := 1, minSize := 0 }
    (by decide) (by decide)
  have hwaits := hrun [(0, .acquire 1 none), (0, .acquire 2 none)]
  cases hp
  have hqueue : (({ pool := { config := { maxSize := 1, minSize := 0 } } } : PoolRun Unit).run
      [(0, .acquire 1 none), (0, .acquire 2 none)]).pool.waiters ≠ [] := List.cons_ne_nil _ _
  obtain ⟨hopen, hfull, -⟩ := hwaits (.inl hqueue)
  exact ⟨_, rfl, hqueue, hopen, hfull⟩

end InferenceRouting.PoolRun
