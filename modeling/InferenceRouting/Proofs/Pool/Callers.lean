import InferenceRouting.Pool.Run
import InferenceRouting.Proofs.Keyed
import InferenceRouting.Proofs.Pool.Service

/-!
# The callers of a pool

A caller has one acquisition under way or holds one lease, and an acquisition that waits for its
turn has a ticket.  A ticket is at one place in the pool, in the queue or on what was handed over,
and what is there is for the address its acquisition asked for (`Attended`).

Each change of what is under way has a theorem that says what becomes of this.
-/

namespace InferenceRouting

namespace Pool

variable {κ : Type} {p q : Pool κ}

/-- The tickets in the queue and on what was handed over. -/
def tickets (p : Pool κ) : List Nat :=
  p.waiters.map (·.id) ++ p.inbox.map (·.1)

/-- What there is for a ticket is for an address. -/
def Addressed (p : Pool κ) (ticket : Nat) (url : String) : Prop :=
  (∀ w ∈ p.waiters, w.id = ticket → w.baseUrl = url) ∧
    ∀ l, (ticket, Delivery.connection l) ∈ p.inbox → l.baseUrl = url

/-- A ticket that is served stays in the pool. -/
theorem Serves.tickets (h : p.Serves q) : p.tickets.Perm q.tickets := by
  obtain ⟨batch, hwaiters, hinbox, -⟩ := h.served
  simp only [Pool.tickets, hwaiters, hinbox, List.map_append, List.map_map, Function.comp_def]
  have hfront : (batch.map (·.1.id) ++ q.waiters.map (·.id) ++ p.inbox.map (·.1)).Perm
      (q.waiters.map (·.id) ++ (batch.map (·.1.id) ++ p.inbox.map (·.1))) := by
    rw [← List.append_assoc]
    exact List.perm_append_comm.append_right _
  exact hfront.trans (List.perm_append_comm.append_left _)

/-- What a ticket is served with is for the address its caller waits for. -/
theorem Serves.addressed (h : p.Serves q) {ticket : Nat} {url : String}
    (ha : p.Addressed ticket url) : q.Addressed ticket url := by
  obtain ⟨batch, hwaiters, hinbox, hsuits⟩ := h.served
  refine ⟨?_, ?_⟩
  · intro w hw
    exact ha.1 w (hwaiters ▸ List.mem_append_right _ hw)
  · intro l hl
    rw [hinbox] at hl
    rcases List.mem_append.mp hl with hl | hl
    · exact ha.2 l hl
    · obtain ⟨⟨w, d⟩, hd, heq⟩ := List.mem_map.mp hl
      cases heq
      have hw : w ∈ p.waiters := hwaiters ▸ List.mem_append_left _ (List.mem_map_of_mem hd)
      exact (hsuits _ hd).trans (ha.1 w hw rfl)

/-- A ticket that was handed something splits what was handed over. -/
theorem exists_handed (hn : p.tickets.Nodup) {ticket : Nat} {d : Delivery κ}
    (hd : p.inbox.lookup ticket = some d) :
    ∃ pre post, p.inbox = pre ++ (ticket, d) :: post ∧
      p.inbox.filter (·.1 ≠ ticket) = pre ++ post := by
  obtain ⟨-, hn, -⟩ := List.nodup_append.mp hn
  obtain ⟨pre, post, hsplit, hne⟩ := Keyed.exists_split hn (Keyed.mem_of_lookup hd)
  exact ⟨pre, post, hsplit, by rw [hsplit]; exact Keyed.filter_ne hne⟩

/-- A ticket that was handed nothing splits the queue. -/
theorem exists_queued (hn : p.tickets.Nodup) {ticket : Nat} (ht : ticket ∈ p.tickets)
    (hd : p.inbox.lookup ticket = none) :
    ∃ pre post, ∃ w : Waiter, w.id = ticket ∧ p.waiters = pre ++ w :: post ∧
      p.waiters.filter (·.id ≠ ticket) = pre ++ post := by
  obtain ⟨hn, -, -⟩ := List.nodup_append.mp hn
  rcases List.mem_append.mp ht with ht | ht
  · obtain ⟨w, hw, rfl⟩ := List.mem_map.mp ht
    obtain ⟨pre, post, hsplit, hne⟩ := Keyed.exists_split hn hw
    exact ⟨pre, post, w, rfl, hsplit, by rw [hsplit]; exact Keyed.filter_ne hne⟩
  · exact absurd ht (Keyed.notMem_of_lookup_eq_none hd)

end Pool

namespace Acquisition

/-- The ticket of an acquisition that waits for its turn. -/
def ticket? (a : Acquisition) : Option Nat :=
  match a.phase with
  | .queued ticket => some ticket
  | .opening => none

theorem ticket?_of_opening {a : Acquisition} (h : a.phase = .opening) : a.ticket? = none := by
  unfold ticket?
  rw [h]

theorem ticket?_of_queued {a : Acquisition} {ticket : Nat} (h : a.phase = .queued ticket) :
    a.ticket? = some ticket := by
  unfold ticket?
  rw [h]

end Acquisition

namespace PoolRun

variable {κ : Type} {r : PoolRun κ} {a : Acquisition}

/-- What a ticket was handed is picked up. -/
def pickUp (r : PoolRun κ) (ticket : Nat) : PoolRun κ :=
  { r with pool := { r.pool with inbox := r.pool.inbox.filter (·.1 ≠ ticket) } }

/-- What becomes of an acquisition that picks something up. -/
def receive (r : PoolRun κ) (now : Nat) (a : Acquisition) : Delivery κ → PoolRun κ × PoolOutcome κ
  | .connection l => r.grant now a l
  | .room => (r.await { a with phase := .opening }, .open a.baseUrl)
  | .closed => (r.endAcquisition a.caller, .refused .poolClosed)

/-- Who looks for what its ticket was handed receives it, if there is anything. -/
theorem collectFor_eq (r : PoolRun κ) (now : Nat) (a : Acquisition) (ticket : Nat) :
    r.collectFor now a ticket =
      (r.pool.inbox.lookup ticket).map ((r.pickUp ticket).receive now a) := by
  unfold collectFor
  cases r.pool.inbox.lookup ticket with
  | none => rfl
  | some d => cases d <;> rfl

theorem exists_of_collectFor {now ticket : Nat} {o : PoolRun κ × PoolOutcome κ}
    (ho : r.collectFor now a ticket = some o) :
    ∃ d, r.pool.inbox.lookup ticket = some d ∧ o = (r.pickUp ticket).receive now a d := by
  rw [collectFor_eq] at ho
  obtain ⟨d, hd, heq⟩ := Option.map_eq_some_iff.mp ho
  exact ⟨d, hd, heq.symm⟩

theorem lookup_of_collectFor {now ticket : Nat} (ho : r.collectFor now a ticket = none) :
    r.pool.inbox.lookup ticket = none := by
  rw [collectFor_eq] at ho
  exact Option.map_eq_none_iff.mp ho

/-- The ticket a caller waits with. -/
def ticketOf? (r : PoolRun κ) (caller : Nat) : Option Nat :=
  (r.acquisition? caller).bind (·.ticket?)

theorem ticketOf?_of_opening {caller : Nat} (hfound : r.acquisition? caller = some a)
    (hphase : a.phase = .opening) : r.ticketOf? caller = none := by
  rw [ticketOf?, hfound, Option.bind_some, Acquisition.ticket?_of_opening hphase]

theorem ticketOf?_of_queued {caller ticket : Nat} (hfound : r.acquisition? caller = some a)
    (hphase : a.phase = .queued ticket) : r.ticketOf? caller = some ticket := by
  rw [ticketOf?, hfound, Option.bind_some, Acquisition.ticket?_of_queued hphase]

theorem ticketOf?_of_none {caller : Nat} (hnone : r.acquisition? caller = none) :
    r.ticketOf? caller = none := by
  rw [ticketOf?, hnone, Option.bind_none]

/-- A caller that looks for what its ticket was handed receives it, or finds nothing. -/
theorem collect_cases (r : PoolRun κ) (now caller : Nat) :
    (∀ ticket, r.ticketOf? caller = some ticket → r.pool.inbox.lookup ticket = none) ∧
        r.collect now caller = (r, .nothing) ∨
      ∃ a ticket d, r.acquisition? caller = some a ∧ a.phase = .queued ticket ∧
        r.pool.inbox.lookup ticket = some d ∧
        r.collect now caller = (r.pickUp ticket).receive now a d := by
  unfold collect
  cases hfound : r.acquisition? caller with
  | none =>
      refine .inl ⟨fun ticket hticket => ?_, rfl⟩
      rw [ticketOf?_of_none hfound] at hticket
      cases hticket
  | some a =>
      cases hphase : a.phase with
      | opening =>
          refine .inl ⟨fun ticket hticket => ?_, by simp only [hphase]⟩
          rw [ticketOf?_of_opening hfound hphase] at hticket
          cases hticket
      | queued ticket =>
          cases hd : r.pool.inbox.lookup ticket with
          | none =>
              refine .inl ⟨fun t hticket => ?_, by simp [hphase, collectFor_eq, hd]⟩
              rw [ticketOf?_of_queued hfound hphase] at hticket
              cases hticket
              exact hd
          | some d =>
              exact .inr ⟨a, ticket, d, rfl, hphase, hd, by simp [hphase, collectFor_eq, hd]⟩

/-- A caller that has waited long enough receives what its ticket was handed, or else leaves the
queue. -/
theorem expire_cases (r : PoolRun κ) (now caller : Nat) :
    r.ticketOf? caller = none ∧ r.expire now caller = (r, .nothing) ∨
      ∃ a ticket, r.acquisition? caller = some a ∧ a.phase = .queued ticket ∧
        ((∃ d, r.pool.inbox.lookup ticket = some d ∧
            r.expire now caller = (r.pickUp ticket).receive now a d) ∨
          r.pool.inbox.lookup ticket = none ∧ r.expire now caller =
            (({ r with pool := { r.pool with
                waiters := r.pool.waiters.filter (·.id ≠ ticket)
                meters := { r.pool.meters with timeouts := r.pool.meters.timeouts + 1 } } } :
                  PoolRun κ).endAcquisition caller,
              .refused (.acquisitionTimeout a.baseUrl ((now - a.started) * 1000000)))) := by
  unfold expire
  cases hfound : r.acquisition? caller with
  | none => exact .inl ⟨ticketOf?_of_none hfound, rfl⟩
  | some a =>
      cases hphase : a.phase with
      | opening => exact .inl ⟨ticketOf?_of_opening hfound hphase, by simp only [hphase]⟩
      | queued ticket =>
          refine .inr ⟨a, ticket, rfl, hphase, ?_⟩
          cases hd : r.pool.inbox.lookup ticket with
          | none => exact .inr ⟨rfl, by simp [hphase, collectFor_eq, hd]⟩
          | some d => exact .inl ⟨d, rfl, by simp [hphase, collectFor_eq, hd]⟩

/-- The tickets callers wait with. -/
def tickets (r : PoolRun κ) : List Nat :=
  r.acquisitions.filterMap (·.ticket?)

/-- The callers with an acquisition under way or a lease. -/
def callers (r : PoolRun κ) : List Nat :=
  r.acquisitions.map (·.caller) ++ r.holders.map (·.1)

/-- Everybody has one thing under way, and every ticket is at one place in the pool. -/
structure Attended (r : PoolRun κ) : Prop where
  callers : r.callers.Nodup
  sweeps : (r.sweeps.map (·.1)).Nodup
  distinct : r.pool.tickets.Nodup
  waiting : r.tickets.Perm r.pool.tickets
  recent : ∀ t ∈ r.pool.tickets, t ≤ r.pool.lastId
  addressed : ∀ a ∈ r.acquisitions, ∀ t, a.phase = .queued t → r.pool.Addressed t a.baseUrl

namespace Attended

/-- Serving the queue changes nothing for the callers. -/
theorem serves (h : r.Attended) {q : Pool κ} (hq : r.pool.Serves q) :
    ({ r with pool := q } : PoolRun κ).Attended := by
  refine ⟨h.callers, h.sweeps, hq.tickets.nodup_iff.mp h.distinct, h.waiting.trans hq.tickets,
    ?_, ?_⟩
  · intro t ht
    exact Nat.le_trans (h.recent t (hq.tickets.mem_iff.mpr ht)) hq.lastId
  · intro a ha t hphase
    exact hq.addressed (h.addressed a ha t hphase)

/-- What sweeps wait for does not matter to the callers. -/
theorem sweep (h : r.Attended) {sweeps : List (Nat × SweepPhase)} (hn : (sweeps.map (·.1)).Nodup) :
    ({ r with sweeps } : PoolRun κ).Attended :=
  ⟨h.callers, hn, h.distinct, h.waiting, h.recent, h.addressed⟩

/-- An acquisition and those left when it ends. -/
theorem perm_endAcquisition (h : r.Attended) (ha : a ∈ r.acquisitions) :
    r.acquisitions.Perm (a :: (r.endAcquisition a.caller).acquisitions) :=
  Keyed.perm_cons_filter (List.nodup_append.mp h.callers).1 ha

/-- A caller with an acquisition under way holds no lease. -/
theorem notMem_holders (h : r.Attended) (ha : a ∈ r.acquisitions) :
    a.caller ∉ r.holders.map (·.1) := by
  obtain ⟨-, -, hdisjoint⟩ := List.nodup_append.mp h.callers
  exact fun hin => hdisjoint a.caller (List.mem_map_of_mem ha) a.caller hin rfl

/-- An acquisition ends together with its ticket. -/
theorem finish (h : r.Attended) (ha : a ∈ r.acquisitions) {q : Pool κ}
    (htickets : r.pool.tickets.Perm (a.ticket?.toList ++ q.tickets))
    (hlast : r.pool.lastId ≤ q.lastId)
    (haddressed : ∀ t url, r.pool.Addressed t url → q.Addressed t url) :
    (({ r with pool := q } : PoolRun κ).endAcquisition a.caller).Attended := by
  have hsub : (r.endAcquisition a.caller).acquisitions.Sublist r.acquisitions :=
    List.filter_sublist
  have htaken : r.tickets.Perm (a.ticket?.toList ++ (r.endAcquisition a.caller).tickets) := by
    have hmap := (h.perm_endAcquisition ha).filterMap (·.ticket?)
    cases hticket : a.ticket? with
    | none => simpa [PoolRun.tickets, hticket] using hmap
    | some t => simpa [PoolRun.tickets, hticket] using hmap
  have hkept : ∀ t ∈ q.tickets, t ∈ r.pool.tickets := fun t ht =>
    htickets.mem_iff.mpr (List.mem_append_right _ ht)
  refine ⟨h.callers.sublist ((hsub.map _).append_right _), h.sweeps, ?_, ?_, ?_, ?_⟩
  · exact (List.nodup_append.mp (htickets.nodup_iff.mp h.distinct)).2.1
  · exact (List.perm_append_left_iff _).mp (htaken.symm.trans (h.waiting.trans htickets))
  · intro t ht
    exact Nat.le_trans (h.recent t (hkept t ht)) hlast
  · intro b hb t hphase
    exact haddressed t _ (h.addressed b (hsub.subset hb) t hphase)

/-- An acquisition that has no ticket may end. -/
theorem finish_opening (h : r.Attended) (ha : a ∈ r.acquisitions) (hphase : a.phase = .opening) :
    (r.endAcquisition a.caller).Attended := by
  have hticket := Acquisition.ticket?_of_opening hphase
  refine h.finish (q := r.pool) ha ?_ (Nat.le_refl _) fun _ _ h => h
  rw [hticket]
  exact .refl _

/-- An acquisition ends with what it was handed. -/
theorem finish_handed (h : r.Attended) (ha : a ∈ r.acquisitions) {ticket : Nat}
    (hphase : a.phase = .queued ticket) {d : Delivery κ}
    (hd : r.pool.inbox.lookup ticket = some d) :
    (({ r with pool := { r.pool with inbox := r.pool.inbox.filter (·.1 ≠ ticket) } } :
      PoolRun κ).endAcquisition a.caller).Attended := by
  have hticket := Acquisition.ticket?_of_queued hphase
  obtain ⟨pre, post, hsplit, hrest⟩ := Pool.exists_handed h.distinct hd
  refine h.finish ha ?_ (Nat.le_refl _) fun t url haddr => ⟨haddr.1, fun l hl => ?_⟩
  · rw [hticket, hrest]
    have hmiddle : (r.pool.waiters.map (·.id) ++ pre.map (·.1) ++ ticket :: post.map (·.1)).Perm
        (ticket :: (r.pool.waiters.map (·.id) ++ pre.map (·.1) ++ post.map (·.1))) :=
      List.perm_middle
    simpa [Pool.tickets, hsplit] using hmiddle
  · exact haddr.2 l (List.mem_filter.mp hl).1

/-- An acquisition that was handed nothing leaves the queue. -/
theorem finish_queued (h : r.Attended) (ha : a ∈ r.acquisitions) {ticket : Nat}
    (hphase : a.phase = .queued ticket) (hd : r.pool.inbox.lookup ticket = none)
    (meters : PoolMeters) :
    (({ r with pool := { r.pool with
        waiters := r.pool.waiters.filter (·.id ≠ ticket)
        meters } } : PoolRun κ).endAcquisition a.caller).Attended := by
  have hticket := Acquisition.ticket?_of_queued hphase
  have hin : ticket ∈ r.pool.tickets :=
    h.waiting.mem_iff.mp (List.mem_filterMap.mpr ⟨a, ha, hticket⟩)
  obtain ⟨pre, post, w, rfl, hsplit, hrest⟩ := Pool.exists_queued h.distinct hin hd
  refine h.finish ha ?_ (Nat.le_refl _) fun t url haddr => ⟨fun v hv => ?_, haddr.2⟩
  · rw [hticket, hrest]
    simp [Pool.tickets, hsplit]
  · exact haddr.1 v (List.mem_filter.mp hv).1

/-- A caller that is new among those with an acquisition is there once. -/
theorem nodup_begin (h : r.Attended) (hfree : a.caller ∉ r.callers) :
    ((r.acquisitions ++ [a]).map (·.caller) ++ r.holders.map (·.1)).Nodup := by
  have hperm : ((r.acquisitions ++ [a]).map (·.caller) ++ r.holders.map (·.1)).Perm
      (a.caller :: r.callers) := by
    have hmiddle : (r.acquisitions.map (·.caller) ++ a.caller :: r.holders.map (·.1)).Perm
        (a.caller :: r.callers) := List.perm_middle
    simpa using hmiddle
  exact hperm.nodup_iff.mpr (List.nodup_cons.mpr ⟨hfree, h.callers⟩)

/-- A caller with nothing under way may begin to open a connection. -/
theorem begin_opening (h : r.Attended) (hfree : a.caller ∉ r.callers)
    (hphase : a.phase = .opening) :
    ({ r with acquisitions := r.acquisitions ++ [a] } : PoolRun κ).Attended := by
  have hticket := Acquisition.ticket?_of_opening hphase
  refine ⟨h.nodup_begin hfree, h.sweeps, h.distinct, ?_, h.recent, ?_⟩
  · simpa [PoolRun.tickets, hticket] using h.waiting
  · intro b hb t hqueued
    rcases List.mem_append.mp hb with hb | hb
    · exact h.addressed b hb t hqueued
    · obtain rfl := List.mem_singleton.mp hb
      rw [hphase] at hqueued
      cases hqueued

/-- A caller with nothing under way may join the queue. -/
theorem begin_queued (h : r.Attended) (hfree : a.caller ∉ r.callers)
    (hphase : a.phase = .queued (r.pool.lastId + 1)) :
    ({ r with
      pool := { r.pool with
        lastId := r.pool.lastId + 1
        waiters := r.pool.waiters ++ [(⟨r.pool.lastId + 1, a.baseUrl⟩ : Waiter)] }
      acquisitions := r.acquisitions ++ [a] } : PoolRun κ).Attended := by
  have hticket := Acquisition.ticket?_of_queued hphase
  have hnew : r.pool.lastId + 1 ∉ r.pool.tickets := fun hin =>
    absurd (h.recent _ hin) (Nat.not_succ_le_self _)
  have hperm : ((r.pool.lastId + 1) :: r.pool.tickets).Perm
      (r.pool.waiters.map (·.id) ++ (r.pool.lastId + 1) :: r.pool.inbox.map (·.1)) :=
    List.perm_middle.symm
  have htickets : ({ r.pool with
      lastId := r.pool.lastId + 1
      waiters := r.pool.waiters ++ [(⟨r.pool.lastId + 1, a.baseUrl⟩ : Waiter)] } :
        Pool κ).tickets =
      r.pool.waiters.map (·.id) ++ (r.pool.lastId + 1) :: r.pool.inbox.map (·.1) := by
    simp [Pool.tickets]
  refine ⟨h.nodup_begin hfree, h.sweeps, ?_, ?_, ?_, ?_⟩
  · rw [htickets]
    exact hperm.nodup_iff.mp (List.nodup_cons.mpr ⟨hnew, h.distinct⟩)
  · rw [htickets]
    have hlast : ({ r with acquisitions := r.acquisitions ++ [a] } : PoolRun κ).tickets =
        r.tickets ++ [r.pool.lastId + 1] := by
      simp [PoolRun.tickets, hticket]
    exact (hlast ▸ List.perm_append_singleton _ _).trans ((h.waiting.cons _).trans hperm)
  · intro t ht
    rw [htickets] at ht
    rcases List.mem_cons.mp (hperm.mem_iff.mpr ht) with rfl | ht
    · exact Nat.le_refl _
    · exact Nat.le_succ_of_le (h.recent t ht)
  · intro b hb t hqueued
    rcases List.mem_append.mp hb with hb | hb
    · have haddr := h.addressed b hb t hqueued
      have hold : t ∈ r.pool.tickets := h.waiting.mem_iff.mp (List.mem_filterMap.mpr
        ⟨b, hb, Acquisition.ticket?_of_queued hqueued⟩)
      refine ⟨?_, haddr.2⟩
      intro w hw heq
      rcases List.mem_append.mp hw with hw | hw
      · exact haddr.1 w hw heq
      · obtain rfl := List.mem_singleton.mp hw
        have hsame : r.pool.lastId + 1 = t := heq
        exact absurd (hsame ▸ hold) hnew
    · obtain rfl := List.mem_singleton.mp hb
      rw [hphase] at hqueued
      cases hqueued
      refine ⟨?_, ?_⟩
      · intro w hw heq
        rcases List.mem_append.mp hw with hw | hw
        · exact absurd (heq ▸ List.mem_append_left _ (List.mem_map_of_mem hw)) hnew
        · rw [List.mem_singleton.mp hw]
      · intro l hl
        exact absurd (List.mem_append_right _ (List.mem_map_of_mem hl)) hnew

/-- A caller with nothing under way may hold a lease. -/
theorem hold (h : r.Attended) {caller : Nat} (hfree : caller ∉ r.callers) (l : Lease κ) :
    ({ r with holders := r.holders ++ [(caller, l)] } : PoolRun κ).Attended := by
  have hperm : (r.acquisitions.map (·.caller) ++ (r.holders ++ [(caller, l)]).map (·.1)).Perm
      (caller :: r.callers) := by
    have hlast : (r.callers ++ [caller]).Perm (caller :: r.callers) :=
      List.perm_append_singleton _ _
    simpa [PoolRun.callers] using hlast
  exact ⟨hperm.nodup_iff.mpr (List.nodup_cons.mpr ⟨hfree, h.callers⟩), h.sweeps, h.distinct,
    h.waiting, h.recent, h.addressed⟩

theorem unhold (h : r.Attended) (caller : Nat) :
    ({ r with holders := r.holders.filter (·.1 ≠ caller) } : PoolRun κ).Attended :=
  ⟨h.callers.sublist ((List.filter_sublist.map _).append_left _), h.sweeps, h.distinct, h.waiting,
    h.recent, h.addressed⟩

end Attended

end PoolRun

end InferenceRouting
