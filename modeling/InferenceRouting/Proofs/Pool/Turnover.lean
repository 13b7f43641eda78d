import InferenceRouting.Proofs.Pool.Order

/-!
# The connections that come and go

An operation on a pool may take a connection in, under a new id, and may close some.  `Turns` says
what this leaves: every connection that is gone has been counted as evicted, once; of those that
stay, one that was found unhealthy while in use (`PoolSlot.Flagged`) is still in use and still
unhealthy; and none is handed over that had been found unhealthy.

Only a shutdown is no turnover: it drops what is in the pool without counting it.  Every other event
is one, as long as the pool is open (`step_turns`).
-/

namespace InferenceRouting

/-- A connection in use that was found unhealthy. -/
def PoolSlot.Flagged {κ : Type} (s : PoolSlot κ) : Prop :=
  s.inUse = true ∧ s.healthy = false

namespace Pool

variable {κ : Type} {p q r : Pool κ} {n : Nat} {held : List (Lease κ)}
  {opened opened' : List (Nat × κ)}

/-- The connections in a pool, by the ids of their slots. -/
def stock (p : Pool κ) : List (Nat × κ) :=
  p.slots.map fun s => (s.id, s.connection)

/-- The number of connections a pool has closed, over all reasons. -/
def evictions (p : Pool κ) : Nat :=
  EvictionReason.all.foldr (fun reason n => p.meters.evicted reason + n) 0

/-- One pool comes from another by taking in what was opened, if anything, and by closing
connections, each counted once. -/
structure Turns (p : Pool κ) (opened : List (Nat × κ)) (q : Pool κ) : Prop where
  closed : q.closed = p.closed
  stock : q.stock.Sublist (p.stock ++ opened)
  lastId : p.lastId ≤ q.lastId
  fresh : ∀ c ∈ opened, p.lastId < c.1 ∧ c.1 ≤ q.lastId
  created : q.meters.created = p.meters.created + opened.length
  counted : q.evictions + q.slots.length = p.evictions + p.slots.length + opened.length
  flagged : ∀ t ∈ q.slots, t.id ∈ opened.map (·.1) ∨
    ∃ s ∈ p.slots, s.id = t.id ∧ (s.Flagged → t.Flagged)
  handed : ∀ ticket l, (ticket, Delivery.connection l) ∈ q.inbox →
    (ticket, Delivery.connection l) ∈ p.inbox ∨ l.id ∈ opened.map (·.1) ∨
      ∃ s ∈ p.slots, s.id = l.id ∧ ¬s.Flagged

@[simp] theorem stock_ids (p : Pool κ) : p.stock.map (·.1) = p.slots.map (·.id) := by
  simp [stock, Function.comp_def]

@[simp] theorem length_stock (p : Pool κ) : p.stock.length = p.slots.length := by
  simp [stock]

/-- An eviction is counted under one reason. -/
theorem evictions_countEviction (p : Pool κ) (reason : EvictionReason) :
    (p.countEviction reason).evictions = p.evictions + 1 := by
  cases reason <;> simp [evictions, EvictionReason.all, countEviction] <;> omega

namespace Turns

/-- A pool that keeps its slots and hands no connection over turns nothing over. -/
theorem of_eq (hclosed : q.closed = p.closed) (hslots : q.slots = p.slots)
    (hlast : p.lastId ≤ q.lastId) (hcreated : q.meters.created = p.meters.created)
    (hevicted : q.meters.evicted = p.meters.evicted)
    (hinbox : ∀ ticket l, (ticket, Delivery.connection l) ∈ q.inbox →
      (ticket, Delivery.connection l) ∈ p.inbox) : p.Turns [] q := by
  refine ⟨hclosed, ?_, hlast, ?_, hcreated, ?_, ?_, fun ticket l hl => .inl (hinbox ticket l hl)⟩
  · simp [Pool.stock, hslots]
  · exact fun c hc => absurd hc List.not_mem_nil
  · simp [evictions, hslots, hevicted]
  · intro t ht
    exact .inr ⟨t, hslots ▸ ht, rfl, fun h => h⟩

/-- A pool that differs in its queue, its reservations and other counts alone turns nothing over. -/
theorem same (h : (q.closed, q.slots, q.lastId, q.meters.created, q.meters.evicted, q.inbox) =
    (p.closed, p.slots, p.lastId, p.meters.created, p.meters.evicted, p.inbox)) :
    p.Turns [] q := by
  simp only [Prod.mk.injEq] at h
  obtain ⟨hclosed, hslots, hlast, hcreated, hevicted, hinbox⟩ := h
  exact of_eq hclosed hslots (Nat.le_of_eq hlast.symm) hcreated hevicted fun _ _ hl => hinbox ▸ hl

theorem refl (p : Pool κ) : p.Turns [] p :=
  same rfl

/-- One turnover after another. -/
theorem trans (h : p.Turns opened q) (h' : q.Turns opened' r) : p.Turns (opened ++ opened') r := by
  refine ⟨h'.closed.trans h.closed, ?_, Nat.le_trans h.lastId h'.lastId, ?_, ?_, ?_, ?_, ?_⟩
  · rw [← List.append_assoc]
    exact h'.stock.trans (h.stock.append_right opened')
  · intro c hc
    rcases List.mem_append.mp hc with hc | hc
    · exact ⟨(h.fresh c hc).1, Nat.le_trans (h.fresh c hc).2 h'.lastId⟩
    · exact ⟨Nat.lt_of_le_of_lt h.lastId (h'.fresh c hc).1, (h'.fresh c hc).2⟩
  · rw [h'.created, h.created, List.length_append, Nat.add_assoc]
  · have hcounted := h.counted
    have hcounted' := h'.counted
    rw [List.length_append]
    omega
  · intro t ht
    rcases h'.flagged t ht with hnew | ⟨u, hu, hid, hkept⟩
    · exact .inl (by simp [hnew])
    · rcases h.flagged u hu with hnew | ⟨s, hs, hid', hkept'⟩
      · exact .inl (by simp [← hid, hnew])
      · exact .inr ⟨s, hs, hid'.trans hid, fun hs => hkept (hkept' hs)⟩
  · intro ticket l hl
    rcases h'.handed ticket l hl with hold | hnew | ⟨u, hu, hid, hfit⟩
    · rcases h.handed ticket l hold with hold | hnew | hfrom
      · exact .inl hold
      · exact .inr (.inl (by simp [hnew]))
      · exact .inr (.inr hfrom)
    · exact .inr (.inl (by simp [hnew]))
    · rcases h.flagged u hu with hnew | ⟨s, hs, hid', hkept⟩
      · exact .inr (.inl (by simp [← hid, hnew]))
      · exact .inr (.inr ⟨s, hs, hid'.trans hid, fun hs => hfit (hkept hs)⟩)

/-- A turnover with nothing taken in after another. -/
theorem andThen (h : p.Turns opened q) (h' : q.Turns [] r) : p.Turns opened r := by
  have htrans := h.trans h'
  rwa [List.append_nil] at htrans

/-- What is taken in has ids that were not given before. -/
theorem lt_of_mem (h : p.Turns opened q) {id : Nat} (hid : id ∈ opened.map (·.1)) :
    p.lastId < id := by
  obtain ⟨c, hc, rfl⟩ := List.mem_map.mp hid
  exact (h.fresh c hc).1

/-- Ids stay distinct when nothing is taken in. -/
theorem distinct (h : p.Turns [] q) (hn : (p.slots.map (·.id)).Nodup) :
    (q.slots.map (·.id)).Nodup := by
  have hsub := h.stock.map (·.1)
  rw [List.append_nil, stock_ids, stock_ids] at hsub
  exact hn.sublist hsub

end Turns

section Operations

/-- A slot may change as long as it keeps its connection, and its flag if it has one. -/
theorem setSlot_turns {id : Nat} {f : PoolSlot κ → PoolSlot κ}
    (hf : ∀ s, (f s).id = s.id ∧ (f s).connection = s.connection)
    (hflagged : ∀ s ∈ p.slots, s.id = id → s.Flagged → (f s).Flagged) :
    p.Turns [] (p.setSlot id f) := by
  have hstock : (p.setSlot id f).stock = p.stock := by
    simp only [stock, setSlot, List.map_map]
    refine List.map_congr_left fun s _ => ?_
    by_cases hid : s.id = id <;> simp [hid, hf s]
  refine ⟨rfl, ?_, Nat.le_refl _, fun c hc => absurd hc List.not_mem_nil, rfl, ?_, ?_,
    fun ticket l hl => .inl hl⟩
  · rw [hstock]
    exact List.sublist_append_left _ []
  · simp [evictions, setSlot]
  · intro t ht
    obtain ⟨s, hs, rfl⟩ := List.mem_map.mp ht
    refine .inr ⟨s, hs, ?_, ?_⟩
    · by_cases hid : s.id = id <;> simp [hid, (hf s).1]
    · intro hs'
      by_cases hid : s.id = id
      · simpa [hid] using hflagged s hs hid hs'
      · simpa [hid] using hs'

/-- Closing a connection counts it. -/
theorem evict_turns (hn : (p.slots.map (·.id)).Nodup) {id : Nat} (hid : id ∈ p.slots.map (·.id))
    (reason : EvictionReason) : p.Turns [] (p.evict id reason) := by
  obtain ⟨s, hs, rfl⟩ := List.mem_map.mp hid
  obtain ⟨pre, post, hslots, hne⟩ := Keyed.exists_split hn hs
  have hsub : (pre ++ post).Sublist p.slots := by
    rw [hslots]
    exact (List.sublist_cons_self s post).append_left pre
  rw [evict_eq hslots hne]
  refine ⟨rfl, ?_, Nat.le_refl _, fun c hc => absurd hc List.not_mem_nil, rfl, ?_, ?_,
    fun ticket l hl => .inl hl⟩
  · rw [List.append_nil]
    exact hsub.map _
  · rw [evictions_countEviction]
    simp only [evictions, countEviction, hslots, List.length_append, List.length_cons,
      List.length_nil]
    omega
  · intro t ht
    exact .inr ⟨t, hsub.subset ht, rfl, fun h => h⟩

/-- A closed connection is not in the pool. -/
theorem notMem_evict (p : Pool κ) (id : Nat) (reason : EvictionReason) :
    id ∉ (p.evict id reason).slots.map (·.id) := by
  intro hin
  obtain ⟨s, hs, heq⟩ := List.mem_map.mp hin
  have hne := (List.mem_filter.mp hs).2
  simp [heq] at hne

/-- What is opened comes in under a new id. -/
theorem arrival_turns {s : PoolSlot κ} (hid : s.id = p.lastId + 1) :
    p.Turns [(s.id, s.connection)] { p.arrival with slots := p.slots ++ [s] } := by
  refine ⟨rfl, ?_, Nat.le_succ _, ?_, rfl, ?_, ?_, fun ticket l hl => .inl hl⟩
  · simp [stock]
  · intro c hc
    rw [List.mem_singleton.mp hc, hid]
    exact ⟨Nat.lt_succ_self _, Nat.le_refl _⟩
  · simp only [evictions, arrival, List.length_append, List.length_singleton]
    omega
  · intro t ht
    rcases List.mem_append.mp ht with ht | ht
    · exact .inr ⟨t, ht, rfl, fun h => h⟩
    · exact .inl (by simp [List.mem_singleton.mp ht])

/-- What is picked up leaves the connections of the pool. -/
theorem pickUp_turns (p : Pool κ) (ticket : Nat) :
    p.Turns [] { p with inbox := p.inbox.filter (·.1 ≠ ticket) } :=
  .of_eq rfl rfl (Nat.le_refl _) rfl rfl fun _ _ hl => (List.mem_filter.mp hl).1

theorem publish_turns (p : Pool κ) : p.Turns [] p.publish :=
  .same rfl

theorem checkout_turns (p : Pool κ) (now id : Nat) : p.Turns [] (p.checkout now id) :=
  setSlot_turns (fun _ => ⟨rfl, rfl⟩) fun _ _ _ hs => ⟨rfl, hs.2⟩

theorem markUnhealthy_turns (p : Pool κ) (id : Nat) : p.Turns [] (p.markUnhealthy id) :=
  setSlot_turns (fun _ => ⟨rfl, rfl⟩) fun _ _ _ hs => ⟨hs.1, rfl⟩

/-- Giving room away hands no connection over. -/
theorem grantRoom_turns (p : Pool κ) : p.Turns [] p.grantRoom := by
  rw [grantRoom_eq]
  refine .of_eq rfl rfl (Nat.le_refl _) rfl rfl fun ticket l hl => ?_
  rcases List.mem_append.mp hl with hl | hl
  · exact hl
  · obtain ⟨w, -, heq⟩ := List.mem_map.mp hl
    cases heq

/-- A reservation that is given back turns nothing over. -/
theorem dropReservation_turns (p : Pool κ) : p.Turns [] p.dropReservation := by
  have hback : p.Turns [] { p with pending := p.pending - 1 } := .same rfl
  exact hback.trans (grantRoom_turns _)

/-- A healthy connection is handed on, is closed to make room, or becomes idle. -/
theorem offer_turns (hn : (p.slots.map (·.id)).Nodup) {id : Nat}
    (hhealthy : ∀ s ∈ p.slots, s.id = id → s.healthy = true) (now : Nat) :
    p.Turns [] (p.offer now id) := by
  have hfit : ∀ s ∈ p.slots, s.id = id → ¬s.Flagged := fun s hs hid hflag =>
    absurd ((hhealthy s hs hid).symm.trans hflag.2) (by decide)
  unfold offer
  split
  · exact .refl p
  · rename_i s hfound
    obtain ⟨hs, rfl⟩ := Keyed.of_find?_eq_some hfound
    split
    · exact setSlot_turns (fun _ => ⟨rfl, rfl⟩) fun t ht hid hflag => absurd hflag (hfit t ht hid)
    · rename_i w rest hwaiters
      have hleft : p.Turns [] { p with waiters := rest } := .same rfl
      dsimp only
      split
      · refine (hleft.andThen (checkout_turns _ now s.id)).andThen ?_
        let q := ({ p with waiters := rest } : Pool κ).checkout now s.id
        have hin : { s with inUse := true, lastUsedAt := now } ∈ q.slots :=
          List.mem_map.mpr ⟨s, hs, if_pos rfl⟩
        refine ⟨rfl, ?_, Nat.le_refl _, fun c hc => absurd hc List.not_mem_nil, rfl, rfl,
          fun t ht => .inr ⟨t, ht, rfl, fun h => h⟩, ?_⟩
        · exact List.sublist_append_left _ []
        · intro ticket l hl
          rcases List.mem_append.mp hl with hl | hl
          · exact .inl hl
          · cases List.mem_singleton.mp hl
            exact .inr (.inr ⟨_, hin, rfl, fun hflag =>
              absurd ((hhealthy s hs rfl).symm.trans hflag.2) (by decide)⟩)
      · have hevict := evict_turns (p := { p with waiters := rest }) hn
          (List.mem_map_of_mem hs) .handoff
        refine ((hleft.andThen hevict).andThen ?_).andThen (grantRoom_turns _)
        refine .of_eq rfl rfl (Nat.le_refl _) rfl rfl fun ticket l hl => ?_
        rcases List.mem_append.mp hl with hl | hl
        · exact hl
        · cases List.mem_singleton.mp hl

/-- A connection that is given back is closed when it is unhealthy, and else offered. -/
theorem release_turns (hn : (p.slots.map (·.id)).Nodup) (now id : Nat) :
    p.Turns [] (p.release now id) := by
  unfold release
  split
  · exact .refl p
  · rename_i s hfound
    obtain ⟨hs, rfl⟩ := Keyed.of_find?_eq_some hfound
    have htouch : p.Turns [] (p.setSlot s.id fun s => { s with lastUsedAt := now }) :=
      setSlot_turns (fun _ => ⟨rfl, rfl⟩) fun _ _ _ h => h
    have hn' := htouch.distinct hn
    have hin : { s with lastUsedAt := now } ∈
        (p.setSlot s.id fun s => { s with lastUsedAt := now }).slots :=
      List.mem_map.mpr ⟨s, hs, if_pos rfl⟩
    refine Turns.andThen ?_ (publish_turns _)
    split
    · exact (htouch.andThen (evict_turns hn' (List.mem_map_of_mem hin) .unhealthy)).andThen
        (grantRoom_turns _)
    · rename_i hkeep
      have hhealthy : s.healthy = true := by
        simp only [Bool.or_eq_true, Bool.not_eq_true', not_or] at hkeep
        simpa using hkeep.1
      refine htouch.andThen (offer_turns hn' ?_ now)
      intro t ht hid
      have hsame := Keyed.eq_of_mem hn' hin ht hid
      rw [hsame]
      exact hhealthy

theorem reclaim_turns (hn : (p.slots.map (·.id)).Nodup) (now : Nat) (d : Delivery κ) :
    p.Turns [] (p.reclaim now d) := by
  cases d with
  | connection l => exact release_turns hn now l.id
  | room => exact dropReservation_turns p
  | closed => exact .refl p

/-- Retiring idle connections closes some of them. -/
theorem retire_turns (hn : (p.slots.map (·.id)).Nodup) (now : Nat) {idle : List (PoolSlot κ)}
    (hidle : (idle.map (·.id)).Nodup) (hin : ∀ s ∈ idle, s.id ∈ p.slots.map (·.id)) :
    p.Turns [] (retire now p idle).1 := by
  induction idle generalizing p with
  | nil => exact .refl p
  | cons s rest ih =>
      obtain ⟨hfresh, hrest⟩ := List.nodup_cons.mp hidle
      have hin' : ∀ t ∈ rest, t.id ∈ p.slots.map (·.id) :=
        fun t ht => hin t (List.mem_cons_of_mem _ ht)
      simp only [retire]
      split
      · have hevict := evict_turns hn (hin s List.mem_cons_self) .idle
        refine hevict.andThen (ih (hevict.distinct hn) hrest ?_)
        intro t ht
        have hne : t.id ≠ s.id := fun heq => hfresh (List.mem_map.mpr ⟨t, ht, heq⟩)
        obtain ⟨u, hu, heq⟩ := List.mem_map.mp (hin' t ht)
        exact List.mem_map.mpr ⟨u, List.mem_filter.mpr ⟨hu, by simp [heq, hne]⟩, heq⟩
      · exact ih hn hrest hin'

theorem beginSweep?_turns (hn : (p.slots.map (·.id)).Nodup) {now : Nat}
    {candidates : List (Lease κ)} (hq : p.beginSweep? now = some (q, candidates)) :
    p.Turns [] q := by
  unfold beginSweep? at hq
  split at hq
  · cases hq
  · cases hq
    refine (retire_turns hn now ?_ ?_).andThen (grantRoom_turns _)
    · exact (p.idleByAge_perm.map (·.id)).nodup_iff.mpr (hn.sublist (List.filter_sublist.map _))
    · exact fun s hs => List.mem_map_of_mem (of_mem_idleByAge hs).1

/-- The result of a probe closes the connection or flags it, or finds it in order. -/
theorem applyProbe_turns (hn : (p.slots.map (·.id)).Nodup) (id : Nat) (alive : Bool) :
    p.Turns [] (p.applyProbe id alive) := by
  unfold applyProbe
  split
  · exact .refl p
  · rename_i s hfound
    obtain ⟨hs, rfl⟩ := Keyed.of_find?_eq_some hfound
    split
    · split
      · exact .refl p
      · rename_i hidle
        refine setSlot_turns (fun _ => ⟨rfl, rfl⟩) fun t ht hid hflag => ?_
        have hsame := Keyed.eq_of_mem hn hs ht hid
        exact absurd (hsame ▸ hflag.1) hidle
    · split
      · exact markUnhealthy_turns p s.id
      · exact evict_turns hn (List.mem_map_of_mem hs) .probeFailed

theorem applyProbes_turns (hn : (p.slots.map (·.id)).Nodup) (results : List (Nat × Bool)) :
    p.Turns [] (p.applyProbes results) := by
  have hfold : p.Turns [] (results.foldl (fun p r => p.applyProbe r.1 r.2) p) := by
    induction results generalizing p with
    | nil => exact .refl p
    | cons result rest ih =>
        have hone := applyProbe_turns hn result.1 result.2
        exact hone.andThen (ih (hone.distinct hn))
  exact (hfold.andThen (grantRoom_turns _)).andThen (publish_turns _)

theorem reserveWarm?_turns (hq : p.reserveWarm? = some q) : p.Turns [] q := by
  unfold reserveWarm? at hq
  split at hq
  · cases hq
  · cases hq
    exact .same rfl

/-- What was opened for a caller comes into an open pool. -/
theorem commitLeased_turns (hc : p.closed = false) (now : Nat) (url : String) (connection : κ) :
    p.Turns [(p.lastId + 1, connection)] (p.commitLeased now url connection).1 := by
  let s : PoolSlot κ := ⟨p.lastId + 1, url, connection, true, true, now⟩
  have hopen : p.commitLeased now url connection =
      (({ p.arrival with slots := p.slots ++ [s] } : Pool κ).publish, .ok (lease s)) :=
    if_neg (by simp [hc])
  rw [hopen]
  exact (arrival_turns (s := s) rfl).andThen (publish_turns _)

/-- What was opened for a sweep comes into an open pool. -/
theorem commitIdle_turns (h : p.Sound n held) (hc : p.closed = false) (now : Nat) (url : String)
    (connection : κ) :
    p.Turns [(p.lastId + 1, connection)] (p.commitIdle now url connection).1 := by
  let s : PoolSlot κ := ⟨p.lastId + 1, url, connection, false, true, now⟩
  let q : Pool κ := { p.arrival with slots := p.slots ++ [s] }
  have hopen : p.commitIdle now url connection = ((q.offer now s.id).publish, true) :=
    if_neg (by simp [hc])
  have hfresh : ∀ t ∈ p.slots, t.id ≠ s.id := fun t ht heq =>
    absurd (heq ▸ h.recent t ht) (Nat.not_succ_le_self _)
  have hn : (q.slots.map (·.id)).Nodup := by
    have hperm : (q.slots.map (·.id)).Perm (s.id :: p.slots.map (·.id)) := by
      simp [q]
    refine hperm.nodup_iff.mpr (List.nodup_cons.mpr ⟨?_, h.distinct⟩)
    intro hin
    obtain ⟨t, ht, heq⟩ := List.mem_map.mp hin
    exact hfresh t ht heq
  have hhealthy : ∀ t ∈ q.slots, t.id = s.id → t.healthy = true := by
    intro t ht hid
    rcases List.mem_append.mp ht with ht | ht
    · exact absurd hid (hfresh t ht)
    · rw [List.mem_singleton.mp ht]
  rw [hopen]
  exact ((arrival_turns (s := s) rfl).andThen (offer_turns hn hhealthy now)).andThen
    (publish_turns _)

end Operations

end Pool

namespace PoolRun

variable {κ : Type} {r : PoolRun κ} {e : PoolEvent κ}

/-- The connection that comes into an open pool with an event, by the id it gets. -/
def arrivals (r : PoolRun κ) : PoolEvent κ → List (Nat × κ)
  | .opened caller (.ok connection) =>
    if (r.acquisition? caller).any isOpening then [(r.pool.lastId + 1, connection)] else []
  | .warmed id (.ok connection) =>
    if r.sweeps.lookup id = some .opening then [(r.pool.lastId + 1, connection)] else []
  | _ => []

/-- At most one connection comes in. -/
theorem arrivals_ordered (r : PoolRun κ) (e : PoolEvent κ) :
    ((r.arrivals e).map (·.1)).Pairwise (· < ·) := by
  unfold arrivals
  split
  · split <;> simp
  · split <;> simp
  · simp

theorem arrivals_opened_eq_nil {caller : Nat} (h : (r.acquisition? caller).any isOpening = false)
    (result : Except RoutingError κ) : r.arrivals (.opened caller result) = [] := by
  cases result with
  | error e => rfl
  | ok connection => exact if_neg (by simp [h])

theorem arrivals_warmed_eq_nil {id : Nat} {result : Except RoutingError κ}
    (h : ∀ connection, r.sweeps.lookup id = some .opening → result ≠ .ok connection) :
    r.arrivals (.warmed id result) = [] := by
  cases result with
  | error e => rfl
  | ok connection => exact if_neg fun hphase => h connection hphase rfl

theorem receive_turns (r : PoolRun κ) (now ticket : Nat) (a : Acquisition) (d : Delivery κ) :
    r.pool.Turns [] ((r.pickUp ticket).receive now a d).1.pool := by
  have hpicked := Pool.pickUp_turns r.pool ticket
  cases d with
  | connection l => exact hpicked.andThen (.same rfl)
  | room => exact hpicked
  | closed => exact hpicked

theorem acquire_turns (h : r.Sound) (now caller : Nat) (baseUrl : Option String) :
    r.pool.Turns [] (r.acquire now caller baseUrl).1.pool := by
  unfold acquire
  dsimp only
  split
  · exact .refl r.pool
  split
  · exact .refl r.pool
  let q : Pool κ := { r.pool with totalRequests := r.pool.totalRequests + 1 }
  have hcounted : r.pool.Turns [] q := .same rfl
  have hqueued : ∀ url, r.pool.Turns [] (({ r with pool := q } : PoolRun κ).joinQueue now caller
      url).1.pool := fun url => .of_eq rfl rfl (Nat.le_succ _) rfl rfl fun _ _ hl => hl
  split
  · rename_i s hfor
    exact (hcounted.andThen (Pool.checkout_turns q now s.id)).andThen (.same rfl)
  · split
    · exact hqueued _
    · split
      · exact .same rfl
      · split
        · rename_i s hother
          obtain ⟨hs, -⟩ := Pool.of_idleElsewhere? hother
          have hevict := Pool.evict_turns (p := q) h.settled.distinct (List.mem_map_of_mem hs)
            .rebalance
          exact (hcounted.andThen hevict).andThen (.same rfl)
        · exact hqueued _

theorem opened_turns (hc : r.pool.closed = false) (now caller : Nat)
    (result : Except RoutingError κ) :
    r.pool.Turns (r.arrivals (.opened caller result)) (r.opened now caller result).1.pool := by
  unfold opened
  split
  · rename_i a hfound
    split
    · rename_i connection hphase
      have hnew : r.arrivals (.opened caller (.ok connection)) =
          [(r.pool.lastId + 1, connection)] := by
        simp [arrivals, hfound, isOpening, hphase]
      have hcommit := Pool.commitLeased_turns hc now a.baseUrl connection
      rw [hnew]
      split
      · rename_i q l hq
        rw [hq] at hcommit
        exact hcommit.andThen (.same rfl)
      · rename_i q e hq
        rw [hq] at hcommit
        exact hcommit
    · exact Pool.dropReservation_turns r.pool
    · rename_i hphase
      rw [arrivals_opened_eq_nil (by simp [hfound, isOpening, hphase])]
      exact .refl r.pool
  · rename_i hfound
    rw [arrivals_opened_eq_nil (by simp [hfound])]
    exact .refl r.pool

theorem abandon_turns (h : r.Sound) (now caller : Nat) :
    r.pool.Turns [] (r.abandon now caller).pool := by
  unfold abandon
  split
  · exact .refl r.pool
  · dsimp only
    split
    · exact Pool.dropReservation_turns r.pool
    · rename_i ticket _
      split
      · rename_i d _
        exact (Pool.pickUp_turns r.pool ticket).andThen (Pool.reclaim_turns (p := { r.pool with
          inbox := r.pool.inbox.filter (·.1 ≠ ticket) }) h.settled.distinct now d)
      · exact .same rfl

theorem fill_turns (r : PoolRun κ) (id : Nat) : r.pool.Turns [] (r.fill id).1.pool := by
  unfold fill
  split
  · rename_i q hq
    exact Pool.reserveWarm?_turns hq
  · exact .refl r.pool

theorem warmed_turns (h : r.Sound) (hc : r.pool.closed = false) (now id : Nat)
    (result : Except RoutingError κ) :
    r.pool.Turns (r.arrivals (.warmed id result)) (r.warmed now id result).1.pool := by
  unfold warmed
  split
  · rename_i connection hphase
    have hnew : r.arrivals (.warmed id (.ok connection)) = [(r.pool.lastId + 1, connection)] :=
      if_pos hphase
    have hcommit := Pool.commitIdle_turns h.settled.toSound hc now r.pool.config.defaultBaseUrl
      connection
    rw [hnew]
    split
    · rename_i q hq
      rw [hq] at hcommit
      exact hcommit
    · rename_i q hq
      rw [hq] at hcommit
      exact hcommit
  · exact Pool.dropReservation_turns r.pool
  · rename_i hok _
    rw [arrivals_warmed_eq_nil hok]
    exact .refl r.pool

/-- **Step theorem.**  Every event but a shutdown takes what has been opened into an open pool, and
counts every connection that is gone. -/
theorem step_turns (h : r.Sound) (hc : r.pool.closed = false) (now : Nat) {e : PoolEvent κ}
    (he : e ≠ .shutdown) : r.pool.Turns (r.arrivals e) (r.step now e).1.pool := by
  cases e with
  | acquire caller baseUrl => exact acquire_turns h now caller baseUrl
  | opened caller result => exact opened_turns hc now caller result
  | collect caller =>
      simp only [step]
      rcases r.collect_cases now caller with ⟨-, heq⟩ | ⟨a, ticket, d, -, -, -, heq⟩
      · rw [heq]
        exact .refl r.pool
      · rw [heq]
        exact receive_turns r now ticket a d
  | expire caller =>
      simp only [step]
      rcases r.expire_cases now caller with ⟨-, heq⟩ | ⟨a, ticket, -, -, ⟨d, -, heq⟩ | ⟨-, heq⟩⟩
      · rw [heq]
        exact .refl r.pool
      · rw [heq]
        exact receive_turns r now ticket a d
      · rw [heq]
        exact .same rfl
  | abandon caller => exact abandon_turns h now caller
  | release caller =>
      simp only [step, release]
      split
      · exact .refl r.pool
      · rename_i l _
        exact Pool.release_turns h.settled.distinct now l.id
  | flag caller =>
      simp only [step, flag]
      split
      · exact .refl r.pool
      · rename_i l _
        exact Pool.markUnhealthy_turns r.pool l.id
  | sweep id =>
      simp only [step, sweep]
      split
      · exact .refl r.pool
      · split
        · exact .refl r.pool
        · rename_i q candidates hq
          exact Pool.beginSweep?_turns h.settled.distinct hq
  | warm id =>
      simp only [step]
      split
      · exact .refl r.pool
      · exact fill_turns r id
  | probed id results =>
      simp only [step, probed]
      split
      · exact Pool.applyProbes_turns h.settled.distinct results
      · exact .refl r.pool
  | refill id =>
      simp only [step, refill]
      split
      · exact fill_turns r id
      · exact .refl r.pool
  | warmed id result => exact warmed_turns h hc now id result
  | abandonSweep id =>
      simp only [step, abandonSweep]
      split
      · exact Pool.dropReservation_turns r.pool
      · exact .refl r.pool
      · exact .refl r.pool
  | shutdown => exact absurd rfl he

/-- An event that leaves the pool open is a turnover. -/
theorem turns_of_open (h : r.Sound) (now : Nat) (e : PoolEvent κ)
    (hopen : (r.step now e).1.pool.closed = false) :
    r.pool.Turns (r.arrivals e) (r.step now e).1.pool := by
  refine step_turns h ((step_queueStep h.toAttended now e).closed hopen) now ?_
  rintro rfl
  cases hopen

/-- A pool that is open after some events was open before them. -/
theorem open_of_run (h : r.Sound) (events : List (Nat × PoolEvent κ))
    (hopen : (r.run events).pool.closed = false) : r.pool.closed = false := by
  induction events generalizing r with
  | nil => exact hopen
  | cons e rest ih =>
      exact (step_queueStep h.toAttended e.1 e.2).closed (ih (step_sound h e.1 e.2) hopen)

end PoolRun

end InferenceRouting
