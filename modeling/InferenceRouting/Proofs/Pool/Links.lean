import InferenceRouting.Proofs.Pool.Standing

/-!
# Where connections lead

A pool files every connection under the address for which it was opened, in a slot or on what it has
handed over (`Pool.links`).  No event files one under another address: what is linked after it was
linked before, but for the connection that it brings (`step_draws`).  So a caller is granted a
connection that was opened for the address it asked for, or is told to open one for that address
(`Answers`).
-/

namespace InferenceRouting

namespace Pool

variable {κ : Type} {p q : Pool κ} {link : String × κ}

/-- The connections of a pool with the addresses under which they are filed. -/
def links (p : Pool κ) : List (String × κ) :=
  p.slots.map (fun s => (s.baseUrl, s.connection)) ++
    p.handed.map fun l => (l.baseUrl, l.connection)

/-- A link is that of a slot, or of a lease that was handed over. -/
theorem mem_links : link ∈ p.links ↔ (∃ s ∈ p.slots, (s.baseUrl, s.connection) = link) ∨
    ∃ l ∈ p.handed, (l.baseUrl, l.connection) = link := by
  simp [links]

/-- The connection of a slot is linked. -/
theorem link_of_slot {s : PoolSlot κ} (hs : s ∈ p.slots) : (s.baseUrl, s.connection) ∈ p.links :=
  mem_links.mpr (.inl ⟨s, hs, rfl⟩)

/-- A connection that was handed over is linked. -/
theorem link_of_handed {l : Lease κ} (hl : l ∈ p.handed) : (l.baseUrl, l.connection) ∈ p.links :=
  mem_links.mpr (.inr ⟨l, hl, rfl⟩)

/-- What is handed over is a lease of one of the slots, or no connection. -/
theorem links_deliver {d : Delivery κ} (hd : ∀ l, d.lease? = some l → ∃ s ∈ p.slots, lease s = l)
    (w : Waiter) : (p.deliver w d).links ⊆ p.links := by
  intro link hlink
  rcases mem_links.mp hlink with ⟨s, hs, rfl⟩ | ⟨l, hl, rfl⟩
  · exact link_of_slot hs
  · simp only [handed, Pool.deliver, List.filterMap_append, List.mem_append] at hl
    rcases hl with hl | hl
    · exact link_of_handed hl
    · obtain ⟨given, hmem, hlease⟩ := List.mem_filterMap.mp hl
      rw [List.mem_singleton.mp hmem] at hlease
      obtain ⟨s, hs, rfl⟩ := hd l hlease
      exact link_of_slot hs

/-- A slot may change as long as it keeps its address and its connection. -/
theorem links_setSlot (p : Pool κ) (id : Nat) {f : PoolSlot κ → PoolSlot κ}
    (hf : ∀ s, (f s).baseUrl = s.baseUrl ∧ (f s).connection = s.connection) :
    (p.setSlot id f).links ⊆ p.links := by
  intro link hlink
  rcases mem_links.mp hlink with ⟨t, ht, rfl⟩ | ⟨l, hl, rfl⟩
  · obtain ⟨s, hs, rfl⟩ := List.mem_map.mp ht
    split
    · rw [(hf s).1, (hf s).2]
      exact link_of_slot hs
    · exact link_of_slot hs
  · exact link_of_handed hl

/-- A closed connection is linked no more, and no other one is. -/
theorem links_evict (p : Pool κ) (id : Nat) (reason : EvictionReason) :
    (p.evict id reason).links ⊆ p.links := by
  intro link hlink
  rcases mem_links.mp hlink with ⟨s, hs, rfl⟩ | ⟨l, hl, rfl⟩
  · exact link_of_slot (List.mem_filter.mp hs).1
  · exact link_of_handed hl

/-- What is picked up is linked no more, and no other one is. -/
theorem links_pickUp (p : Pool κ) (ticket : Nat) :
    ({ p with inbox := p.inbox.filter (·.1 ≠ ticket) } : Pool κ).links ⊆ p.links := by
  intro link hlink
  rcases mem_links.mp hlink with ⟨s, hs, rfl⟩ | ⟨l, hl, rfl⟩
  · exact link_of_slot hs
  · exact link_of_handed ((List.filter_sublist.filterMap _).subset hl)

/-- Room is no connection. -/
theorem links_grantRoom (p : Pool κ) : p.grantRoom.links ⊆ p.links := by
  rw [grantRoom_eq]
  intro link hlink
  rcases mem_links.mp hlink with ⟨s, hs, rfl⟩ | ⟨l, hl, rfl⟩
  · exact link_of_slot hs
  · simp only [handed, grantTo, List.filterMap_append, List.mem_append] at hl
    rcases hl with hl | hl
    · exact link_of_handed hl
    · obtain ⟨given, hmem, hlease⟩ := List.mem_filterMap.mp hl
      obtain ⟨w, -, rfl⟩ := List.mem_map.mp hmem
      cases hlease

/-- A reservation is no connection either. -/
theorem links_dropReservation (p : Pool κ) : p.dropReservation.links ⊆ p.links :=
  links_grantRoom _

/-- A connection that is handed out stays filed where it was. -/
theorem links_checkout (p : Pool κ) (now id : Nat) : (p.checkout now id).links ⊆ p.links :=
  links_setSlot p id fun _ => ⟨rfl, rfl⟩

/-- A connection that is offered goes under its own address, or is closed. -/
theorem links_offer (p : Pool κ) (now id : Nat) : (p.offer now id).links ⊆ p.links := by
  unfold offer
  split
  · exact List.Subset.refl _
  · rename_i s hfound
    obtain ⟨hs, rfl⟩ := Keyed.of_find?_eq_some hfound
    split
    · exact links_setSlot p s.id fun _ => ⟨rfl, rfl⟩
    · rename_i w rest _
      dsimp only
      split
      · have hin : { s with inUse := true, lastUsedAt := now } ∈
            (({ p with waiters := rest } : Pool κ).checkout now s.id).slots :=
          List.mem_map.mpr ⟨s, hs, if_pos rfl⟩
        refine List.Subset.trans (links_deliver (fun l hl => ?_) w) ?_
        · cases hl
          exact ⟨_, hin, rfl⟩
        · exact links_checkout ({ p with waiters := rest } : Pool κ) now s.id
      · refine List.Subset.trans (links_grantRoom _) ?_
        refine List.Subset.trans (links_deliver (fun l hl => ?_) w) ?_
        · cases hl
        · exact links_evict ({ p with waiters := rest } : Pool κ) s.id .handoff

/-- A connection that is given back is filed where it was, or closed. -/
theorem links_release (p : Pool κ) (now id : Nat) : (p.release now id).links ⊆ p.links := by
  unfold release
  split
  · exact List.Subset.refl _
  · dsimp only
    have htouch : (p.setSlot id fun s => { s with lastUsedAt := now }).links ⊆ p.links :=
      links_setSlot p id fun _ => ⟨rfl, rfl⟩
    refine List.Subset.trans ?_ htouch
    split
    · exact List.Subset.trans (links_grantRoom _) (links_evict _ id .unhealthy)
    · exact links_offer _ now id

/-- So is one that was handed over in vain. -/
theorem links_reclaim (p : Pool κ) (now : Nat) (d : Delivery κ) :
    (p.reclaim now d).links ⊆ p.links := by
  cases d with
  | connection l => exact links_release p now l.id
  | room => exact links_dropReservation p
  | closed => exact List.Subset.refl _

/-- Connections that were idle for too long are closed. -/
theorem links_retire (now : Nat) (p : Pool κ) (idle : List (PoolSlot κ)) :
    (retire now p idle).1.links ⊆ p.links := by
  induction idle generalizing p with
  | nil => exact List.Subset.refl _
  | cons s rest ih =>
      simp only [retire]
      split
      · exact List.Subset.trans (ih _) (links_evict p s.id .idle)
      · exact ih p

theorem links_beginSweep? {now : Nat} {candidates : List (Lease κ)}
    (hq : p.beginSweep? now = some (q, candidates)) : q.links ⊆ p.links := by
  unfold beginSweep? at hq
  split at hq
  · cases hq
  · cases hq
    exact List.Subset.trans (links_grantRoom _) (links_retire now p p.idleByAge)

/-- A probe finds a connection alive, or flags it, or closes it. -/
theorem links_applyProbe (p : Pool κ) (id : Nat) (alive : Bool) :
    (p.applyProbe id alive).links ⊆ p.links := by
  have hchanged (healthy : Bool) : (p.setSlot id fun s => { s with healthy }).links ⊆ p.links :=
    links_setSlot p id fun _ => ⟨rfl, rfl⟩
  unfold applyProbe
  split
  · exact List.Subset.refl _
  · split
    · split
      · exact List.Subset.refl _
      · exact hchanged true
    · split
      · exact hchanged false
      · exact links_evict p id .probeFailed

theorem links_applyProbes (p : Pool κ) (results : List (Nat × Bool)) :
    (p.applyProbes results).links ⊆ p.links := by
  have hfold : (results.foldl (fun p r => p.applyProbe r.1 r.2) p).links ⊆ p.links := by
    induction results generalizing p with
    | nil => exact List.Subset.refl _
    | cons result rest ih => exact List.Subset.trans (ih _) (links_applyProbe p result.1 result.2)
  exact List.Subset.trans (links_grantRoom _) hfold

theorem links_reserveWarm? (hq : p.reserveWarm? = some q) : q.links = p.links := by
  unfold reserveWarm? at hq
  split at hq
  · cases hq
  · cases hq
    rfl

/-- A new slot is linked besides the others. -/
theorem links_insert (p : Pool κ) (now : Nat) (url : String) (connection : κ) (inUse : Bool) :
    (p.insert now url connection inUse).links ⊆ p.links ++ [(url, connection)] := by
  intro link hlink
  rcases mem_links.mp hlink with ⟨s, hs, rfl⟩ | ⟨l, hl, rfl⟩
  · rcases List.mem_append.mp hs with hs | hs
    · exact List.mem_append_left _ (link_of_slot hs)
    · rw [List.mem_singleton.mp hs]
      exact List.mem_append_right _ (List.mem_singleton_self _)
  · exact List.mem_append_left _ (link_of_handed hl)

/-- A connection that was opened is filed under the address for which it was opened. -/
theorem links_commitLeased (p : Pool κ) (now : Nat) (url : String) (connection : κ) :
    (p.commitLeased now url connection).1.links ⊆ p.links ++ [(url, connection)] := by
  unfold commitLeased
  dsimp only
  split
  · exact List.subset_append_left _ _
  · exact links_insert _ now url connection true

/-- So is one that was opened to keep the pool filled. -/
theorem links_commitIdle (p : Pool κ) (now : Nat) (url : String) (connection : κ) :
    (p.commitIdle now url connection).1.links ⊆ p.links ++ [(url, connection)] := by
  unfold commitIdle
  dsimp only
  split
  · exact List.subset_append_left _ _
  · exact List.Subset.trans (links_offer _ now _) (links_insert _ now url connection false)

/-- Nothing is in a pool that was shut down but what was handed over before. -/
theorem links_shutdown (p : Pool κ) : p.shutdown.links ⊆ p.links := by
  intro link hlink
  rcases mem_links.mp hlink with ⟨s, hs, -⟩ | ⟨l, hl, rfl⟩
  · cases hs
  · have hbefore : p.shutdown.handed = p.handed := by
      simp [handed, shutdown, publish, List.filterMap_append, Delivery.lease?]
    rw [hbefore] at hl
    exact link_of_handed hl

end Pool

namespace PoolRun

variable {κ : Type} {r : PoolRun κ} {caller : Nat} {e : PoolEvent κ} {a : Acquisition}
  {o : PoolRun κ × PoolOutcome κ} {links : List (String × κ)}

/-- The connection that an event brings, with the address for which it was to be opened. -/
def brought (r : PoolRun κ) : PoolEvent κ → List (String × κ)
  | .opened caller (.ok connection) =>
    ((r.acquisition? caller).map fun a => (a.baseUrl, connection)).toList
  | .warmed _ (.ok connection) => [(r.pool.config.defaultBaseUrl, connection)]
  | _ => []

/-- All connections in the pool, and one that is granted, are among these. -/
structure Draws (links : List (String × κ)) (o : PoolRun κ × PoolOutcome κ) : Prop where
  linked : o.1.pool.links ⊆ links
  granted : ∀ l, o.2 = .granted l → (l.baseUrl, l.connection) ∈ links

/-- An event that grants nothing. -/
theorem Draws.quiet (hlinks : o.1.pool.links ⊆ links) (hout : o.2.lease? = none) :
    Draws links o := by
  refine ⟨hlinks, fun l hl => ?_⟩
  rw [hl] at hout
  cases hout

/-- An event that grants a lease of what is linked. -/
theorem Draws.grant {q : Pool κ} (hq : q.links ⊆ links) {l : Lease κ}
    (hl : (l.baseUrl, l.connection) ∈ links) (now : Nat) (a : Acquisition) :
    Draws links (({ r with pool := q } : PoolRun κ).grant now a l) := by
  refine ⟨hq, fun k hk => ?_⟩
  cases hk
  exact hl

/-- What is picked up was linked while it lay there. -/
theorem receive_draws {ticket : Nat} {d : Delivery κ} (hd : r.pool.inbox.lookup ticket = some d)
    (now : Nat) (a : Acquisition) :
    Draws r.pool.links ((r.pickUp ticket).receive now a d) := by
  have hpicked : (r.pickUp ticket).pool.links ⊆ r.pool.links := Pool.links_pickUp r.pool ticket
  cases d with
  | connection l =>
      have hl : l ∈ r.pool.handed := List.mem_filterMap.mpr ⟨_, Keyed.mem_of_lookup hd, rfl⟩
      exact .grant (r := r) hpicked (Pool.link_of_handed hl) now a
  | room => exact .quiet hpicked rfl
  | closed => exact .quiet hpicked rfl

/-- Who asks is granted a connection of the pool at most. -/
theorem acquire_draws (r : PoolRun κ) (now caller : Nat) (baseUrl : Option String) :
    Draws r.pool.links (r.acquire now caller baseUrl) := by
  have hsame : r.pool.links ⊆ r.pool.links := List.Subset.refl _
  let q : Pool κ := { r.pool with totalRequests := r.pool.totalRequests + 1 }
  unfold acquire
  dsimp only
  split
  · exact .quiet hsame rfl
  split
  · exact .quiet hsame rfl
  split
  · rename_i s hfor
    have hs : s ∈ r.pool.slots := List.mem_of_find?_eq_some hfor
    exact .grant (r := r) (l := Pool.lease s) (Pool.links_checkout q now s.id)
      (Pool.link_of_slot hs) now _
  · split
    · exact .quiet hsame rfl
    · split
      · exact .quiet hsame rfl
      · split
        · rename_i s _
          exact .quiet (Pool.links_evict _ s.id .rebalance) rfl
        · exact .quiet hsame rfl

/-- Who has a connection opened brings it, and is granted it. -/
theorem opened_draws (r : PoolRun κ) (now caller : Nat) (result : Except RoutingError κ) :
    Draws (r.pool.links ++ r.brought (.opened caller result)) (r.opened now caller result) := by
  have hsame : r.pool.links ⊆ r.pool.links ++ r.brought (.opened caller result) :=
    List.subset_append_left _ _
  unfold opened
  split
  · rename_i a hfound
    split
    · rename_i connection _
      have hnew : r.brought (.opened caller (.ok connection)) = [(a.baseUrl, connection)] := by
        simp [brought, hfound]
      have hcommit := Pool.links_commitLeased r.pool now a.baseUrl connection
      rw [hnew]
      split
      · rename_i q l hq
        rw [hq] at hcommit
        have hl : (l.baseUrl, l.connection) = (a.baseUrl, connection) := by
          unfold Pool.commitLeased at hq
          dsimp only at hq
          split at hq
          · cases hq
          · cases hq
            rfl
        refine .grant (r := r) hcommit ?_ now a
        rw [hl]
        exact List.mem_append_right _ (List.mem_singleton_self _)
      · rename_i q e hq
        rw [hq] at hcommit
        exact .quiet hcommit rfl
    · exact .quiet (List.Subset.trans (Pool.links_dropReservation r.pool) hsame) rfl
    · exact .quiet hsame rfl
  · exact .quiet hsame rfl

/-- Who looks for what it was handed is granted that at most. -/
theorem collect_draws (r : PoolRun κ) (now caller : Nat) :
    Draws r.pool.links (r.collect now caller) := by
  rcases r.collect_cases now caller with ⟨-, heq⟩ | ⟨a, ticket, d, -, -, hd, heq⟩
  · rw [heq]
    exact .quiet (List.Subset.refl _) rfl
  · rw [heq]
    exact receive_draws hd now a

/-- So is who has waited long enough. -/
theorem expire_draws (r : PoolRun κ) (now caller : Nat) :
    Draws r.pool.links (r.expire now caller) := by
  rcases r.expire_cases now caller with ⟨-, heq⟩ | ⟨a, ticket, -, -, ⟨d, hd, heq⟩ | ⟨-, heq⟩⟩
  · rw [heq]
    exact .quiet (List.Subset.refl _) rfl
  · rw [heq]
    exact receive_draws hd now a
  · rw [heq]
    exact .quiet (List.Subset.refl _) rfl

/-- Giving a connection back links nothing new. -/
theorem release_draws (r : PoolRun κ) (now caller : Nat) :
    (r.release now caller).pool.links ⊆ r.pool.links := by
  unfold release
  split
  · exact List.Subset.refl _
  · rename_i l _
    exact Pool.links_release r.pool now l.id

theorem flag_draws (r : PoolRun κ) (caller : Nat) :
    (r.flag caller).pool.links ⊆ r.pool.links := by
  unfold flag
  split
  · exact List.Subset.refl _
  · rename_i l _
    exact Pool.links_setSlot r.pool l.id fun _ => ⟨rfl, rfl⟩

theorem sweep_draws (r : PoolRun κ) (now id : Nat) : Draws r.pool.links (r.sweep now id) := by
  unfold sweep
  split
  · exact .quiet (List.Subset.refl _) rfl
  · split
    · exact .quiet (List.Subset.refl _) rfl
    · rename_i q candidates hq
      exact .quiet (Pool.links_beginSweep? hq) rfl

theorem probed_draws (r : PoolRun κ) (id : Nat) (results : List (Nat × Bool)) :
    Draws r.pool.links (r.probed id results) := by
  unfold probed
  split
  · exact .quiet (Pool.links_applyProbes r.pool results) rfl
  · exact .quiet (List.Subset.refl _) rfl

/-- Nor does going away. -/
theorem abandon_draws (r : PoolRun κ) (now caller : Nat) :
    (r.abandon now caller).pool.links ⊆ r.pool.links := by
  unfold abandon
  split
  · exact List.Subset.refl _
  · dsimp only
    split
    · exact Pool.links_dropReservation r.pool
    · rename_i ticket _
      split
      · rename_i d _
        exact List.Subset.trans (Pool.links_reclaim _ now d) (Pool.links_pickUp r.pool ticket)
      · exact List.Subset.refl _

theorem fill_draws (r : PoolRun κ) (id : Nat) : Draws r.pool.links (r.fill id) := by
  unfold fill
  split
  · rename_i q hq
    refine .quiet ?_ rfl
    rw [← Pool.links_reserveWarm? hq]
    exact List.Subset.refl _
  · exact .quiet (List.Subset.refl _) rfl

/-- A connection that fills the pool is brought for the default address. -/
theorem warmed_draws (r : PoolRun κ) (now id : Nat) (result : Except RoutingError κ) :
    Draws (r.pool.links ++ r.brought (.warmed id result)) (r.warmed now id result) := by
  have hsame : r.pool.links ⊆ r.pool.links ++ r.brought (.warmed id result) :=
    List.subset_append_left _ _
  unfold warmed
  split
  · rename_i connection _
    have hcommit := Pool.links_commitIdle r.pool now r.pool.config.defaultBaseUrl connection
    split
    · rename_i q hq
      rw [hq] at hcommit
      exact .quiet hcommit rfl
    · rename_i q hq
      rw [hq] at hcommit
      exact .quiet hcommit rfl
  · exact .quiet (List.Subset.trans (Pool.links_dropReservation r.pool) hsame) rfl
  · exact .quiet hsame rfl

theorem abandonSweep_draws (r : PoolRun κ) (id : Nat) :
    (r.abandonSweep id).pool.links ⊆ r.pool.links := by
  unfold abandonSweep
  split
  · exact Pool.links_dropReservation r.pool
  · exact List.Subset.refl _
  · exact List.Subset.refl _

/-- **Step theorem.**  What is linked after an event, or granted by it, was linked before, but for
the connection that the event brings. -/
theorem step_draws (r : PoolRun κ) (now : Nat) (e : PoolEvent κ) :
    Draws (r.pool.links ++ r.brought e) (r.step now e) := by
  have hnothing (hnone : r.brought e = []) (h : Draws r.pool.links (r.step now e)) :
      Draws (r.pool.links ++ r.brought e) (r.step now e) := by
    rw [hnone, List.append_nil]
    exact h
  cases e with
  | acquire caller baseUrl => exact hnothing rfl (acquire_draws r now caller baseUrl)
  | opened caller result => exact opened_draws r now caller result
  | collect caller => exact hnothing rfl (collect_draws r now caller)
  | expire caller => exact hnothing rfl (expire_draws r now caller)
  | abandon caller => exact hnothing rfl (.quiet (abandon_draws r now caller) rfl)
  | release caller => exact hnothing rfl (.quiet (release_draws r now caller) rfl)
  | flag caller => exact hnothing rfl (.quiet (flag_draws r caller) rfl)
  | sweep id => exact hnothing rfl (sweep_draws r now id)
  | warm id =>
      refine hnothing rfl ?_
      simp only [step]
      split
      · exact .quiet (List.Subset.refl _) rfl
      · exact fill_draws r id
  | probed id results => exact hnothing rfl (probed_draws r id results)
  | refill id =>
      refine hnothing rfl ?_
      simp only [step, refill]
      split
      · exact fill_draws r id
      · exact .quiet (List.Subset.refl _) rfl
  | warmed id result => exact warmed_draws r now id result
  | abandonSweep id => exact hnothing rfl (.quiet (abandonSweep_draws r id) rfl)
  | shutdown => exact hnothing rfl (.quiet (Pool.links_shutdown r.pool) rfl)

/-! ### What a caller is answered -/

/-- The address a caller asks for. -/
def wanted (r : PoolRun κ) (caller : Nat) : Option String :=
  (r.acquisition? caller).map (·.baseUrl)

/-- What an event tells a caller that asks for an address, and leaves it with, when connections are
opened by this function. -/
structure Answers (connect : String → Except RoutingError κ) (caller : Nat) (url : String)
    (o : PoolRun κ × PoolOutcome κ) : Prop where
  /-- It is granted a connection to the address. -/
  granted : ∀ l, o.2 = .granted l → connect url = .ok l.connection
  /-- It is to open a connection to the address. -/
  opens : ∀ u, o.2 = .open u → u = url
  /-- It is rejected, or no connection to the address can be opened. -/
  refused : ∀ e, o.2 = .refused e → e.isRejection = true ∨ connect url = .error e
  /-- As long as it waits, it does so for the address. -/
  wants : ∀ u, o.1.wanted caller = some u → u = url
  /-- It waits no more when it has been granted or refused something. -/
  granted_ends : ∀ l, o.2 = .granted l → o.1.acquisition? caller = none
  refused_ends : ∀ e, o.2 = .refused e → o.1.acquisition? caller = none

/-- Acquisitions are for what their callers want. -/
theorem noted_wanted (h : r.Attended) : r.Noted r.wanted := by
  intro a ha
  obtain ⟨pre, post, hsplit, hne⟩ := Keyed.exists_split (List.nodup_append.mp h.callers).1 ha
  have hfound : r.acquisition? a.caller = some a := by
    rw [acquisition?, hsplit]
    exact Keyed.find?_eq hne
  rw [wanted, hfound, Option.map_some]

/-- A caller that is to open a connection waits for it, and one that is refused waits no more. -/
structure Leaves (caller : Nat) (o : PoolRun κ × PoolOutcome κ) : Prop where
  opens : ∀ u, o.2 = .open u → o.1.wanted caller = some u
  ended : ∀ e, o.2 = .refused e → o.1.acquisition? caller = none

namespace Leaves

/-- A caller that is told nothing has nothing to do. -/
theorem nothing (s : PoolRun κ) : Leaves caller (s, .nothing) :=
  ⟨nofun, nofun⟩

/-- Nor has one that has been granted a lease. -/
theorem granted (s : PoolRun κ) (l : Lease κ) : Leaves caller (s, .granted l) :=
  ⟨nofun, nofun⟩

/-- Nor has one in the queue. -/
theorem queued (s : PoolRun κ) : Leaves caller (s, .queued) :=
  ⟨nofun, nofun⟩

/-- The caller waits for the connection it is to open. -/
theorem await (r : PoolRun κ) (a : Acquisition) :
    Leaves a.caller (r.await a, .open a.baseUrl) := by
  refine ⟨fun u hu => ?_, nofun⟩
  cases hu
  rw [wanted, acquisition?_await, Option.map_some]

/-- The acquisition ends with a refusal. -/
theorem refuse (r : PoolRun κ) (caller : Nat) (e : RoutingError) :
    Leaves caller (r.endAcquisition caller, .refused e) :=
  ⟨nofun, fun _ _ => r.acquisition?_endAcquisition caller⟩

/-- What becomes of a caller that picks something up. -/
theorem receive (r : PoolRun κ) (now : Nat) (a : Acquisition) (d : Delivery κ) :
    Leaves a.caller (r.receive now a d) := by
  cases d with
  | connection l => exact granted _ l
  | room => exact await r { a with phase := .opening }
  | closed => exact refuse r a.caller .poolClosed

end Leaves

/-- Who asks waits for what it is told to open. -/
theorem acquire_leaves (r : PoolRun κ) (now caller : Nat) (baseUrl : Option String) :
    Leaves caller (r.acquire now caller baseUrl) := by
  unfold acquire
  dsimp only
  split
  · exact .nothing r
  rename_i hbusy
  split
  · refine ⟨fun u hu => (by cases hu), fun _ _ => ?_⟩
    simp only [isBusy, Bool.or_eq_true, not_or, Option.not_isSome_iff_eq_none] at hbusy
    exact hbusy.1
  split
  · exact .granted _ _
  · split
    · exact .queued _
    · split
      · exact .await _ ⟨caller, _, now, .opening⟩
      · split
        · exact .await _ ⟨caller, _, now, .opening⟩
        · exact .queued _

/-- Who has failed to open a connection waits no more. -/
theorem opened_leaves (r : PoolRun κ) (now caller : Nat) (result : Except RoutingError κ) :
    Leaves caller (r.opened now caller result) := by
  unfold opened
  split
  · split
    · split
      · exact .granted _ _
      · exact .refuse _ caller _
    · exact .refuse _ caller _
    · exact .nothing r
  · exact .nothing r

/-- Who is handed room waits for what it is told to open. -/
theorem collect_leaves (r : PoolRun κ) (now caller : Nat) :
    Leaves caller (r.collect now caller) := by
  rcases r.collect_cases now caller with ⟨-, heq⟩ | ⟨a, ticket, d, hfound, -, -, heq⟩
  · rw [heq]
    exact .nothing r
  · obtain ⟨-, rfl⟩ := mem_of_acquisition? hfound
    rw [heq]
    exact .receive _ now a d

/-- Who has waited long enough waits no more. -/
theorem expire_leaves (r : PoolRun κ) (now caller : Nat) :
    Leaves caller (r.expire now caller) := by
  rcases r.expire_cases now caller with
    ⟨-, heq⟩ | ⟨a, ticket, hfound, -, ⟨d, -, heq⟩ | ⟨-, heq⟩⟩
  · rw [heq]
    exact .nothing r
  · obtain ⟨-, rfl⟩ := mem_of_acquisition? hfound
    rw [heq]
    exact .receive _ now a d
  · rw [heq]
    exact .refuse _ caller _

/-- What is left of a caller by an event that is about it. -/
theorem step_leaves (r : PoolRun κ) (now : Nat) (hcaller : e.caller? = some caller) :
    Leaves caller (r.step now e) := by
  cases e with
  | acquire c baseUrl =>
      cases hcaller
      exact acquire_leaves r now caller baseUrl
  | opened c result =>
      cases hcaller
      exact opened_leaves r now caller result
  | collect c =>
      cases hcaller
      exact collect_leaves r now caller
  | expire c =>
      cases hcaller
      exact expire_leaves r now caller
  | abandon c => exact .nothing _
  | release c => exact .nothing _
  | flag c => exact .nothing _
  | _ => cases hcaller

/-- What an event tells a caller, when all connections come from this function and the caller asks
for an address. -/
theorem Answers.of_step {connect : String → Except RoutingError κ} {url : String} {now : Nat}
    (h : r.Sound) (hlinks : ∀ link ∈ r.pool.links ++ r.brought e, connect link.1 = .ok link.2)
    (hcaller : e.caller? = some caller) (hwants : r.note r.wanted e caller = some url)
    (hreplies : r.Replies caller (fun e => connect url = .error e) (r.step now e)) :
    Answers connect caller url (r.step now e) := by
  have hnoted := noted_wanted h.toAttended
  have hdraws := step_draws r now e
  have htraced := step_traced h now e
  have hleaves := step_leaves r now hcaller
  have hwanted : ∀ u, (r.step now e).1.wanted caller = some u → u = url := by
    intro u hu
    obtain ⟨a, hfound, rfl⟩ := Option.map_eq_some_iff.mp hu
    obtain ⟨ha, rfl⟩ := mem_of_acquisition? hfound
    exact Option.some.inj ((htraced.noted r.wanted hnoted a ha).symm.trans hwants)
  refine ⟨fun l hl => ?_, fun u hu => hwanted u (hleaves.opens u hu), hreplies.refused, hwanted,
    fun l hl => hreplies.settled ?_, hleaves.ended⟩
  · obtain ⟨c, hc, -, hnote⟩ := htraced.granted l hl
    obtain rfl := Option.some.inj (hcaller.symm.trans hc)
    have hurl : l.baseUrl = url := Option.some.inj ((hnote r.wanted hnoted).symm.trans hwants)
    rw [← hurl]
    exact hlinks _ (hdraws.granted l hl)
  · rw [hl]
    rfl

section Answers

variable {connect : String → Except RoutingError κ} {url : String}

/-- **Asking.**  What a caller is answered that has nothing under way. -/
theorem acquire_answers (h : r.Sound) (hlinks : ∀ link ∈ r.pool.links, connect link.1 = .ok link.2)
    (hfree : r.isBusy caller = false) (now : Nat) (url : String) :
    Answers connect caller url (r.step now (.acquire caller (some url))) := by
  exact .of_step h (by simpa [brought] using hlinks) rfl (if_pos ⟨rfl, hfree⟩)
    (r.acquire_replies now caller _)

/-- What is opened for the address that a caller waits for leads there. -/
theorem brought_opened (hwants : r.wanted caller = some url) :
    ∀ link ∈ r.brought (.opened caller (connect url)), connect link.1 = .ok link.2 := by
  obtain ⟨a, hfound, rfl⟩ := Option.map_eq_some_iff.mp hwants
  intro link hlink
  cases hconnect : connect a.baseUrl with
  | error e => simp [brought, hconnect] at hlink
  | ok connection =>
      simp only [brought, hconnect, hfound, Option.map_some, Option.toList_some,
        List.mem_singleton] at hlink
      rw [hlink]
      exact hconnect

/-- **Opening.**  What a caller is answered for which a connection has been opened, or could not
be. -/
theorem opened_answers (h : r.Sound) (hlinks : ∀ link ∈ r.pool.links, connect link.1 = .ok link.2)
    (hwants : r.wanted caller = some url) (now : Nat) :
    Answers connect caller url (r.step now (.opened caller (connect url))) := by
  refine .of_step h (fun link hlink => ?_) rfl hwants
    (r.opened_replies now caller fun _ he => he)
  rcases List.mem_append.mp hlink with hlink | hlink
  · exact hlinks link hlink
  · exact brought_opened hwants link hlink

/-- **Collecting.**  What a caller is answered that looks for what it was handed. -/
theorem collect_answers (h : r.Sound) (hlinks : ∀ link ∈ r.pool.links, connect link.1 = .ok link.2)
    (hwants : r.wanted caller = some url) (now : Nat) :
    Answers connect caller url (r.step now (.collect caller)) :=
  .of_step h (by simpa [brought] using hlinks) rfl hwants (r.collect_replies now caller)

/-- **Expiring.**  What a caller is answered that has waited long enough. -/
theorem expire_answers (h : r.Sound) (hlinks : ∀ link ∈ r.pool.links, connect link.1 = .ok link.2)
    (hwants : r.wanted caller = some url) (now : Nat) :
    Answers connect caller url (r.step now (.expire caller)) :=
  .of_step h (by simpa [brought] using hlinks) rfl hwants (r.expire_replies now caller)

end Answers

end PoolRun

end InferenceRouting
