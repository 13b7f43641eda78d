import InferenceRouting.Proofs.Pool.Capacity
import InferenceRouting.Proofs.Pool.Standing
import InferenceRouting.Proofs.Pool.Turnover

/-!
# After a shutdown

A pool that was shut down has no connections and no queue, and gets none again.  What is left are
the places reserved before, which are given back one by one (`Wanes`), and what was handed over
before: a connection is still picked up, room is picked up in vain, and those that were sent away
from the queue find the notice of it.

So what an acquisition will come to is decided at the shutdown (`outlook?`), and no event changes it
but one by which the caller itself goes away or fails to open its connection (`PoolEvent.Quits`).
-/

namespace InferenceRouting

/-- With an event a caller goes away, or fails to open its connection. -/
def PoolEvent.Quits {κ : Type} (e : PoolEvent κ) (caller : Nat) : Prop :=
  e = .abandon caller ∨ ∃ error, e = .opened caller (.error error)

/-- What an acquisition comes to in a pool that was shut down, by what it is handed. -/
def Delivery.verdict {κ : Type} : Delivery κ → PoolOutcome κ
  | .connection l => .granted l
  | .room => .refused .poolClosed
  | .closed => .refused .poolClosed

namespace Pool

variable {κ : Type} {p : Pool κ}

/-- Nobody is given room by a pool without a queue. -/
theorem grantRoom_of_empty (hw : p.waiters = []) : p.grantRoom = p := by
  unfold grantRoom
  rw [hw]
  rfl

/-- Nothing is given back to a pool without slots. -/
theorem release_of_empty (hs : p.slots = []) (now id : Nat) : p.release now id = p := by
  simp [release, slot?, hs]

/-- With nobody in the queue a reservation goes to nobody. -/
theorem dropReservation_of_empty (hw : p.waiters = []) :
    p.dropReservation = { p with pending := p.pending - 1 } :=
  grantRoom_of_empty (p := { p with pending := p.pending - 1 }) hw

/-- Probes find nothing in a pool without slots. -/
theorem applyProbes_of_empty (hs : p.slots = []) (hw : p.waiters = [])
    (results : List (Nat × Bool)) : p.applyProbes results = p.publish := by
  have hfold : results.foldl (fun p r => p.applyProbe r.1 r.2) p = p := by
    induction results with
    | nil => rfl
    | cons r rest ih =>
        have hone : p.applyProbe r.1 r.2 = p := by simp [applyProbe, slot?, hs]
        rw [List.foldl_cons, hone, ih]
  unfold applyProbes
  rw [hfold, grantRoom_of_empty hw]

end Pool

namespace PoolRun

variable {κ : Type} {r : PoolRun κ} {e : PoolEvent κ} {a b : Acquisition} {now caller : Nat}
  {q : Pool κ} {d : Delivery κ}

/-- A pool that is closed stays closed. -/
theorem step_closed (h : r.Sound) (hc : r.pool.closed = true) (now : Nat) (e : PoolEvent κ) :
    (r.step now e).1.pool.closed = true := by
  cases hnext : (r.step now e).1.pool.closed with
  | true => rfl
  | false => exact ((step_queueStep h.toAttended now e).closed hnext).symm.trans hc

/-- Only a shutdown closes a pool. -/
theorem closed_of_step (h : r.Sound) (hc : (r.step now e).1.pool.closed = true) :
    r.pool.closed = true ∨ e = .shutdown := by
  by_cases he : e = .shutdown
  · exact .inr he
  · cases hwas : r.pool.closed with
    | true => exact .inl rfl
    | false =>
        have hsame := (step_turns h hwas now he).closed
        exact .inl (hwas.symm.trans (hsame.symm.trans hc))

/-- A pool that is closed after some events was shut down with one of them. -/
theorem closed_of_run (h : r.Sound) (hopen : r.pool.closed = false)
    (events : List (Nat × PoolEvent κ)) (hc : (r.run events).pool.closed = true) :
    ∃ time, (time, .shutdown) ∈ events := by
  induction events generalizing r with
  | nil =>
      have hc : r.pool.closed = true := hc
      rw [hopen] at hc
      cases hc
  | cons e rest ih =>
      by_cases he : e.2 = .shutdown
      · exact ⟨e.1, List.mem_cons.mpr (.inl (by rw [← he]))⟩
      · have hnext : (r.step e.1 e.2).1.pool.closed = false := by
          refine Bool.eq_false_iff.mpr fun hc' => ?_
          rcases closed_of_step h hc' with hwas | hnow
          · rw [hopen] at hwas
            cases hwas
          · exact he hnow
        obtain ⟨time, hin⟩ := ih (step_sound h e.1 e.2) hnext hc
        exact ⟨time, List.mem_cons_of_mem _ hin⟩

/-- A pool stays closed whatever happens. -/
theorem run_closed (h : r.Sound) (hc : r.pool.closed = true) (events : List (Nat × PoolEvent κ)) :
    (r.run events).pool.closed = true := by
  induction events generalizing r with
  | nil => exact hc
  | cons e rest ih => exact ih (step_sound h e.1 e.2) (step_closed h hc e.1 e.2)

/-- The ticket with which something may be picked up, or left behind, in an event. -/
def pickedUp? (r : PoolRun κ) : PoolEvent κ → Option Nat
  | .collect caller => r.ticketOf? caller
  | .expire caller => r.ticketOf? caller
  | .abandon caller => r.ticketOf? caller
  | _ => none

/-- What an event leaves of a pool that was shut down: a reservation that is given back is gone, and
so is what is picked up. -/
structure Wanes (r : PoolRun κ) (e : PoolEvent κ) (q : Pool κ) : Prop where
  given : r.GivesBack e → q.pending + 1 = r.pool.pending
  kept : ¬r.GivesBack e → q.pending = r.pool.pending
  inbox : q.inbox = r.pool.inbox.filter fun d => decide (some d.1 ≠ r.pickedUp? e)

namespace Wanes

/-- Nothing is gone when there is nothing to pick up. -/
theorem inbox_of_none
    (hnone : ∀ ticket, r.pickedUp? e = some ticket → r.pool.inbox.lookup ticket = none) :
    r.pool.inbox.filter (fun d => decide (some d.1 ≠ r.pickedUp? e)) = r.pool.inbox :=
  List.filter_eq_self.mpr fun _ hd => decide_eq_true fun heq =>
    Keyed.notMem_of_lookup_eq_none (hnone _ heq.symm) (List.mem_map_of_mem hd)

/-- Who finds nothing leaves everything. -/
theorem keep_unserved (hgives : ¬r.GivesBack e)
    (hnone : ∀ ticket, r.pickedUp? e = some ticket → r.pool.inbox.lookup ticket = none)
    (hq : (q.pending, q.inbox) = (r.pool.pending, r.pool.inbox)) : Wanes r e q := by
  simp only [Prod.mk.injEq] at hq
  obtain ⟨hpending, hinbox⟩ := hq
  exact ⟨fun he => absurd he hgives, fun _ => hpending, by rw [hinbox, inbox_of_none hnone]⟩

/-- An event that picks nothing up. -/
theorem keep (hgives : ¬r.GivesBack e) (hpicked : r.pickedUp? e = none)
    (hq : (q.pending, q.inbox) = (r.pool.pending, r.pool.inbox)) : Wanes r e q :=
  keep_unserved hgives (fun _ h => by cases hpicked.symm.trans h) hq

/-- A reservation is given back. -/
theorem back (h : r.Sound) (hgives : r.GivesBack e) (hpicked : r.pickedUp? e = none)
    (hq : (q.pending, q.inbox) = (r.pool.pending - 1, r.pool.inbox)) : Wanes r e q := by
  simp only [Prod.mk.injEq] at hq
  obtain ⟨hpending, hinbox⟩ := hq
  have hpos := h.pending_pos hgives
  have hrest := inbox_of_none (r := r) (e := e) fun _ h => by cases hpicked.symm.trans h
  exact ⟨fun _ => by omega, fun he => absurd hgives he, by rw [hinbox, hrest]⟩

/-- What a ticket was handed is picked up, or left behind without a reservation. -/
theorem pick (hgives : ¬r.GivesBack e) {ticket : Nat} (hpicked : r.pickedUp? e = some ticket)
    (hq : (q.pending, q.inbox) = (r.pool.pending, r.pool.inbox.filter (·.1 ≠ ticket))) :
    Wanes r e q := by
  simp only [Prod.mk.injEq] at hq
  obtain ⟨hpending, hinbox⟩ := hq
  exact ⟨fun he => absurd he hgives, fun _ => hpending, by simp [hinbox, hpicked]⟩

/-- Nothing is picked up with a ticket that was handed nothing. -/
theorem pick_none (hgives : ¬r.GivesBack e) {ticket : Nat} (hpicked : r.pickedUp? e = some ticket)
    (hd : r.pool.inbox.lookup ticket = none)
    (hq : (q.pending, q.inbox) = (r.pool.pending, r.pool.inbox)) : Wanes r e q := by
  refine keep_unserved hgives (fun t ht => ?_) hq
  cases hpicked.symm.trans ht
  exact hd

/-- Who receives something has picked it up. -/
theorem receive (hgives : ¬r.GivesBack e) {ticket : Nat} (hpicked : r.pickedUp? e = some ticket)
    (now : Nat) (a : Acquisition) (d : Delivery κ) :
    Wanes r e ((r.pickUp ticket).receive now a d).1.pool := by
  cases d with
  | connection l => exact pick hgives hpicked rfl
  | room => exact pick hgives hpicked rfl
  | closed => exact pick hgives hpicked rfl

end Wanes

/-- A caller that waits for its turn gives a reservation back if it was handed room. -/
theorem givesBack_abandon_iff (hfound : r.acquisition? caller = some a) {ticket : Nat}
    (hphase : a.phase = .queued ticket) :
    r.GivesBack (.abandon caller) ↔ r.pool.inbox.lookup ticket = some .room := by
  simp [GivesBack, hfound, hphase]

/-- Nothing is given back for a caller that is not acquiring. -/
theorem not_givesBack_of_none (hnone : r.acquisition? caller = none) :
    ¬r.GivesBack (.abandon caller) ∧
      ∀ result : Except RoutingError κ, ¬r.GivesBack (.opened caller result) := by
  simp [GivesBack, hnone]

/-! Each event has one lemma of one shape: what it leaves of a pool that was shut down.
`step_wanes` assembles them. -/

/-- Who asks is refused. -/
theorem acquire_wanes (hc : r.pool.closed = true) (now caller : Nat) (baseUrl : Option String) :
    Wanes r (.acquire caller baseUrl) (r.acquire now caller baseUrl).1.pool := by
  have hsame : (r.acquire now caller baseUrl).1 = r := by
    simp only [acquire, hc, if_true]
    split <;> rfl
  rw [hsame]
  exact .keep (fun hgives => hgives) rfl rfl

/-- A connection that was opened, or could not be, gives its reservation back. -/
theorem opened_wanes (h : r.Sound) (hc : r.pool.closed = true) (hw : r.pool.waiters = [])
    (now caller : Nat) (result : Except RoutingError κ) :
    Wanes r (.opened caller result) (r.opened now caller result).1.pool := by
  unfold opened
  split
  · rename_i a hfound
    split
    · rename_i connection hphase
      have hcommit : r.pool.commitLeased now a.baseUrl connection =
          ({ r.pool with
              pending := r.pool.pending - 1
              meters := { r.pool.meters with created := r.pool.meters.created + 1 } },
            .error .poolClosed) := if_pos hc
      rw [hcommit]
      exact .back h ⟨a, hfound, hphase⟩ rfl rfl
    · rename_i error hphase
      rw [Pool.dropReservation_of_empty hw]
      exact .back h ⟨a, hfound, hphase⟩ rfl rfl
    · rename_i hphase
      refine .keep ?_ rfl rfl
      rintro ⟨b, hfound', hopening⟩
      rw [hfound] at hfound'
      cases hfound'
      rw [hphase] at hopening
      cases hopening
  · rename_i hnone
    exact .keep ((not_givesBack_of_none hnone).2 result) rfl rfl

/-- Who looks for what it was handed picks it up. -/
theorem collect_wanes (r : PoolRun κ) (now caller : Nat) :
    Wanes r (.collect caller) (r.collect now caller).1.pool := by
  have hgives : ¬r.GivesBack (.collect caller) := fun hgives => hgives
  rcases r.collect_cases now caller with ⟨hnone, heq⟩ | ⟨a, ticket, d, hfound, hphase, -, heq⟩
  · rw [heq]
    exact .keep_unserved hgives hnone rfl
  · rw [heq]
    exact .receive hgives (ticketOf?_of_queued hfound hphase) now a d

/-- Who has waited long enough leaves with what it was handed. -/
theorem expire_wanes (r : PoolRun κ) (now caller : Nat) :
    Wanes r (.expire caller) (r.expire now caller).1.pool := by
  have hgives : ¬r.GivesBack (.expire caller) := fun hgives => hgives
  rcases r.expire_cases now caller with
    ⟨hnone, heq⟩ | ⟨a, ticket, hfound, hphase, ⟨d, -, heq⟩ | ⟨hd, heq⟩⟩
  · rw [heq]
    exact .keep hgives hnone rfl
  · rw [heq]
    exact .receive hgives (ticketOf?_of_queued hfound hphase) now a d
  · rw [heq]
    exact .pick_none hgives (ticketOf?_of_queued hfound hphase) hd rfl

/-- Who goes away leaves behind what it was handed, and gives back the room it had. -/
theorem abandon_wanes (h : r.Sound) (hs : r.pool.slots = []) (hw : r.pool.waiters = [])
    (now caller : Nat) : Wanes r (.abandon caller) (r.abandon now caller).pool := by
  unfold abandon
  split
  · rename_i hnone
    exact .keep (not_givesBack_of_none hnone).1 (ticketOf?_of_none hnone) rfl
  · rename_i a hfound
    dsimp only
    split
    · rename_i hphase
      rw [Pool.dropReservation_of_empty hw]
      exact .back h ⟨a, hfound, .inl hphase⟩ (ticketOf?_of_opening hfound hphase) rfl
    · rename_i ticket hphase
      have hpicked : r.pickedUp? (.abandon caller) = some ticket :=
        ticketOf?_of_queued hfound hphase
      have hgives := givesBack_abandon_iff hfound hphase
      -- Room that was handed over is given back.  A connection is not, since its slot is gone.
      split
      · rename_i d hd
        rw [hd] at hgives
        cases d with
        | connection l =>
            simp only [Pool.reclaim]
            rw [Pool.release_of_empty (by exact hs)]
            exact .pick (mt hgives.mp nofun) hpicked rfl
        | room =>
            have hgives := hgives.mpr rfl
            have hpos := h.pending_pos hgives
            simp only [Pool.reclaim]
            rw [Pool.dropReservation_of_empty (by exact hw)]
            refine ⟨fun _ => ?_, fun hnot => absurd hgives hnot, ?_⟩
            · simp only
              omega
            · simp [hpicked]
        | closed => exact .pick (mt hgives.mp nofun) hpicked rfl
      · rename_i hd
        rw [hd] at hgives
        exact .pick_none (mt hgives.mp nofun) hpicked hd rfl

/-- There is no slot that could be given back. -/
theorem release_wanes (hs : r.pool.slots = []) (now caller : Nat) :
    Wanes r (.release caller) (r.release now caller).pool := by
  unfold release
  split
  · exact .keep (fun hgives => hgives) rfl rfl
  · rw [Pool.release_of_empty hs]
    exact .keep (fun hgives => hgives) rfl rfl

theorem flag_wanes (r : PoolRun κ) (caller : Nat) :
    Wanes r (.flag caller) (r.flag caller).pool := by
  unfold flag
  split <;> exact .keep (fun hgives => hgives) rfl rfl

/-- No sweep begins. -/
theorem sweep_wanes (hc : r.pool.closed = true) (now id : Nat) :
    Wanes r (.sweep id) (r.sweep now id).1.pool := by
  have hnone : r.pool.beginSweep? now = none := if_pos hc
  simp only [sweep, hnone]
  split <;> exact .keep (fun hgives => hgives) rfl rfl

/-- A sweep that fills a pool does nothing to one that was shut down. -/
theorem fill_wanes (hc : r.pool.closed = true) (hgives : ¬r.GivesBack e)
    (hpicked : r.pickedUp? e = none) (id : Nat) : Wanes r e (r.fill id).1.pool := by
  have hnone : r.pool.reserveWarm? = none := by simp [Pool.reserveWarm?, hc]
  unfold fill
  rw [hnone]
  exact .keep hgives hpicked rfl

/-- There is no slot that could have been probed. -/
theorem probed_wanes (hs : r.pool.slots = []) (hw : r.pool.waiters = []) (id : Nat)
    (results : List (Nat × Bool)) :
    Wanes r (.probed id results) (r.probed id results).1.pool := by
  unfold probed
  split
  · rw [Pool.applyProbes_of_empty hs hw]
    exact .keep (fun hgives => hgives) rfl rfl
  · exact .keep (fun hgives => hgives) rfl rfl

/-- So does a connection with which a sweep would have filled the pool. -/
theorem warmed_wanes (h : r.Sound) (hc : r.pool.closed = true) (hw : r.pool.waiters = [])
    (now id : Nat) (result : Except RoutingError κ) :
    Wanes r (.warmed id result) (r.warmed now id result).1.pool := by
  unfold warmed
  split
  · rename_i connection hphase
    have hcommit : r.pool.commitIdle now r.pool.config.defaultBaseUrl connection =
        ({ r.pool with
            pending := r.pool.pending - 1
            meters := { r.pool.meters with created := r.pool.meters.created + 1 } },
          false) := if_pos hc
    rw [hcommit]
    exact .back h hphase rfl rfl
  · rename_i hphase
    rw [Pool.dropReservation_of_empty hw]
    exact .back h hphase rfl rfl
  · rename_i result _ _ hok herror
    refine .keep (fun hphase => ?_) rfl rfl
    cases result with
    | ok connection => exact hok connection hphase rfl
    | error error => exact herror error hphase rfl

/-- A sweep that is given up gives back the reservation it had. -/
theorem abandonSweep_wanes (h : r.Sound) (hw : r.pool.waiters = []) (id : Nat) :
    Wanes r (.abandonSweep id) (r.abandonSweep id).pool := by
  unfold abandonSweep
  split
  · rename_i hphase
    rw [Pool.dropReservation_of_empty hw]
    exact .back h hphase rfl rfl
  · rename_i hphase
    refine .keep (fun hopening => ?_) rfl rfl
    have hopening : r.sweeps.lookup id = some .opening := hopening
    rw [hphase] at hopening
    cases hopening
  · rename_i hnot _
    exact .keep hnot rfl rfl

/-- A second shutdown has nobody to tell. -/
theorem shutdown_wanes (hw : r.pool.waiters = []) : Wanes r .shutdown r.pool.shutdown := by
  have hinbox : r.pool.shutdown.inbox = r.pool.inbox := by
    simp [Pool.shutdown, Pool.publish, hw]
  exact .keep (fun hgives => hgives) rfl (by simp [hinbox]; rfl)

/-- **Step theorem.**  After a shutdown nothing is added to what was reserved and handed over. -/
theorem step_wanes (h : r.Sound) (hc : r.pool.closed = true) (now : Nat) (e : PoolEvent κ) :
    Wanes r e (r.step now e).1.pool := by
  obtain ⟨hs, hw⟩ := h.settled.emptied hc
  cases e with
  | acquire caller baseUrl => exact acquire_wanes hc now caller baseUrl
  | opened caller result => exact opened_wanes h hc hw now caller result
  | collect caller => exact collect_wanes r now caller
  | expire caller => exact expire_wanes r now caller
  | abandon caller => exact abandon_wanes h hs hw now caller
  | release caller => exact release_wanes hs now caller
  | flag caller => exact flag_wanes r caller
  | sweep id => exact sweep_wanes hc now id
  | warm id =>
      simp only [step]
      split
      · exact .keep (fun hgives => hgives) rfl rfl
      · exact fill_wanes (e := .warm id) hc (fun hgives => hgives) rfl id
  | probed id results => exact probed_wanes hs hw id results
  | refill id =>
      simp only [step, refill]
      split
      · exact fill_wanes (e := .refill id) hc (fun hgives => hgives) rfl id
      · exact .keep (fun hgives => hgives) rfl rfl
  | warmed id result => exact warmed_wanes h hc hw now id result
  | abandonSweep id => exact abandonSweep_wanes h hw id
  | shutdown => exact shutdown_wanes hw

/-- What an acquisition under way is going to find: what its ticket was handed, or the room it has
when it opens a connection. -/
def outlook? (r : PoolRun κ) (caller : Nat) : Option (Delivery κ) :=
  (r.acquisition? caller).bind fun a =>
    match a.phase with
    | .opening => some .room
    | .queued ticket => r.pool.inbox.lookup ticket

/-- Who opens a connection has room. -/
theorem outlook?_of_opening (hfound : r.acquisition? caller = some a)
    (hphase : a.phase = .opening) : r.outlook? caller = some .room := by
  simp only [outlook?, hfound, Option.bind_some, hphase]

/-- Who waits finds what its ticket was handed. -/
theorem outlook?_of_queued (hfound : r.acquisition? caller = some a) {ticket : Nat}
    (hphase : a.phase = .queued ticket) :
    r.outlook? caller = r.pool.inbox.lookup ticket := by
  simp only [outlook?, hfound, Option.bind_some, hphase]

/-- No two callers wait with the same ticket. -/
theorem Attended.eq_of_ticket (h : r.Attended) (ha : a ∈ r.acquisitions) (hb : b ∈ r.acquisitions)
    {ticket : Nat} (hta : a.ticket? = some ticket) (htb : b.ticket? = some ticket) : b = a := by
  have hn : r.tickets.Nodup := h.waiting.nodup_iff.mpr h.distinct
  obtain ⟨pre, post, hsplit⟩ := List.append_of_mem ha
  have htickets : r.tickets =
      pre.filterMap (·.ticket?) ++ ticket :: post.filterMap (·.ticket?) := by
    simp [tickets, hsplit, hta]
  rw [htickets] at hn
  obtain ⟨-, hn, hpre⟩ := List.nodup_append.mp hn
  rw [hsplit] at hb
  rcases List.mem_append.mp hb with hb | hb
  · exact absurd rfl (hpre ticket (List.mem_filterMap.mpr ⟨b, hb, htb⟩) ticket List.mem_cons_self)
  · rcases List.mem_cons.mp hb with rfl | hb
    · rfl
    · exact absurd (List.mem_filterMap.mpr ⟨b, hb, htb⟩) (List.nodup_cons.mp hn).1

/-- With an event that is not about a caller nothing is picked up with its ticket. -/
theorem pickedUp?_ne (h : r.Attended) (hfound : r.acquisition? caller = some a) {ticket : Nat}
    (hticket : a.ticket? = some ticket) (he : e.caller? ≠ some caller) :
    r.pickedUp? e ≠ some ticket := by
  have hother (c : Nat) (hc : c ≠ caller) : r.ticketOf? c ≠ some ticket := by
    intro heq
    obtain ⟨b, hfound', htb⟩ := Option.bind_eq_some_iff.mp heq
    obtain ⟨ha, rfl⟩ := mem_of_acquisition? hfound
    obtain ⟨hb, rfl⟩ := mem_of_acquisition? hfound'
    exact hc (congrArg Acquisition.caller (h.eq_of_ticket ha hb hticket htb))
  cases e with
  | collect c => exact hother c fun heq => he (congrArg some heq)
  | expire c => exact hother c fun heq => he (congrArg some heq)
  | abandon c => exact hother c fun heq => he (congrArg some heq)
  | _ => exact nofun

/-- What a caller is going to find stays as long as it does not pick it up. -/
theorem outlook?_of_wanes {s : PoolRun κ} (hwanes : Wanes r e s.pool)
    (hfound : r.acquisition? caller = some a) (hsame : s.acquisition? caller = some a)
    (hne : ∀ ticket, a.ticket? = some ticket → r.pickedUp? e ≠ some ticket) :
    s.outlook? caller = r.outlook? caller := by
  cases hphase : a.phase with
  | opening =>
      rw [outlook?_of_opening hsame hphase, outlook?_of_opening hfound hphase]
  | queued ticket =>
      have hticket := hne ticket (Acquisition.ticket?_of_queued hphase)
      rw [outlook?_of_queued hsame hphase, outlook?_of_queued hfound hphase, hwanes.inbox]
      cases hpicked : r.pickedUp? e with
      | none => rw [List.filter_eq_self.mpr fun _ _ => by simp]
      | some other =>
          have hother : ticket ≠ other := fun heq => hticket (heq ▸ hpicked)
          simpa using Keyed.lookup_filter_of_ne hother r.pool.inbox

/-- Who receives room goes on to open a connection; with anything else it is done. -/
theorem receive_outlook (r : PoolRun κ) (now : Nat) (a : Acquisition) (d : Delivery κ) :
    d = .room ∧ (r.receive now a d).1.acquisition? a.caller = some { a with phase := .opening } ∨
      (r.receive now a d).1.acquisition? a.caller = none ∧ (r.receive now a d).2 = d.verdict := by
  cases d with
  | connection l => exact .inr ⟨acquisition?_endAcquisition _ _, rfl⟩
  | room => exact .inl ⟨rfl, acquisition?_await _ { a with phase := .opening }⟩
  | closed => exact .inr ⟨acquisition?_endAcquisition _ _, rfl⟩

/-- A caller finds what it was going to find, or has been told so and is done. -/
def Finds (caller : Nat) (d : Delivery κ) (o : PoolRun κ × PoolOutcome κ) : Prop :=
  o.1.outlook? caller = some d ∨ o.1.acquisition? caller = none ∧ o.2 = d.verdict

/-- Who picks up what its ticket was handed has found it. -/
theorem receive_finds (hd : r.outlook? caller = some d) {ticket : Nat} {d' : Delivery κ}
    (hfound : r.acquisition? caller = some b) (hphase : b.phase = .queued ticket)
    (hd' : r.pool.inbox.lookup ticket = some d') (now : Nat) :
    Finds caller d ((r.pickUp ticket).receive now b d') := by
  rw [outlook?_of_queued hfound hphase, hd'] at hd
  cases hd
  obtain ⟨-, rfl⟩ := mem_of_acquisition? hfound
  rcases (r.pickUp ticket).receive_outlook now b d with ⟨rfl, hopening⟩ | hdone
  · exact .inl (outlook?_of_opening hopening rfl)
  · exact .inr hdone

/-- Who has a connection opened for it finds the pool closed. -/
theorem opened_finds (hc : r.pool.closed = true) (hd : r.outlook? caller = some d) (now : Nat)
    (connection : κ) : Finds caller d (r.opened now caller (.ok connection)) := by
  obtain ⟨a, hfound, -⟩ := Option.bind_eq_some_iff.mp hd
  simp only [opened, hfound]
  cases hphase : a.phase with
  | opening =>
      rw [outlook?_of_opening hfound hphase] at hd
      cases hd
      simp only [Pool.commitLeased, hc, if_true]
      exact .inr ⟨acquisition?_endAcquisition _ _, rfl⟩
  | queued ticket => exact .inl hd

theorem collect_finds (hd : r.outlook? caller = some d) (now : Nat) :
    Finds caller d (r.collect now caller) := by
  rcases r.collect_cases now caller with ⟨-, heq⟩ | ⟨b, ticket, d', hfound, hphase, hd', heq⟩
  · rw [heq]
    exact .inl hd
  · rw [heq]
    exact receive_finds hd hfound hphase hd' now

theorem expire_finds (hd : r.outlook? caller = some d) (now : Nat) :
    Finds caller d (r.expire now caller) := by
  rcases r.expire_cases now caller with
    ⟨-, heq⟩ | ⟨b, ticket, hfound, hphase, ⟨d', hd', heq⟩ | ⟨hnone, -⟩⟩
  · rw [heq]
    exact .inl hd
  · rw [heq]
    exact receive_finds hd hfound hphase hd' now
  · rw [outlook?_of_queued hfound hphase, hnone] at hd
    cases hd

/-- **Step theorem.**  After a shutdown a caller that does not quit finds what it was going to find,
or is told so and is done. -/
theorem step_finds (h : r.Sound) (hc : r.pool.closed = true) (hd : r.outlook? caller = some d)
    (hquits : ¬e.Quits caller) (now : Nat) : Finds caller d (r.step now e) := by
  obtain ⟨a, hfound, -⟩ := Option.bind_eq_some_iff.mp hd
  have hsame (hkept : (r.step now e).1.acquisition? caller = some a)
      (hne : ∀ ticket, a.ticket? = some ticket → r.pickedUp? e ≠ some ticket) :
      Finds caller d (r.step now e) :=
    .inl ((outlook?_of_wanes (step_wanes h hc now e) hfound hkept hne).trans hd)
  -- An event of the caller may end its acquisition; any other leaves it as it is (`hsame`).
  by_cases he : e.caller? = some caller
  · cases e with
    | acquire c baseUrl =>
        cases he
        have hbusy : r.isBusy caller = true := by simp [isBusy, hfound]
        simp only [step, acquire, hbusy, if_true]
        exact .inl hd
    | opened c result =>
        cases he
        cases result with
        | error error => exact absurd (.inr ⟨error, rfl⟩) hquits
        | ok connection => exact opened_finds hc hd now connection
    | collect c =>
        cases he
        exact collect_finds hd now
    | expire c =>
        cases he
        exact expire_finds hd now
    | abandon c =>
        cases he
        exact absurd (.inl rfl) hquits
    | release c =>
        exact hsame ((r.acquisition?_release now c caller).trans hfound) fun ticket _ =>
          (Option.some_ne_none ticket).symm
    | flag c =>
        refine hsame ?_ fun ticket _ => (Option.some_ne_none ticket).symm
        simp only [step, flag]
        split <;> exact hfound
    | _ => cases he
  · exact hsame ((r.step_spares now he).acquisition.trans hfound) fun ticket hticket =>
      pickedUp?_ne h.toAttended hfound hticket he

/-- What becomes of an acquisition in the course of some events: the outcome of the one after which
it is under way no more. -/
def ending (r : PoolRun κ) (caller : Nat) : List (Nat × PoolEvent κ) → Option (PoolOutcome κ)
  | [] => none
  | e :: rest =>
    let o := r.step e.1 e.2
    if (o.1.acquisition? caller).isSome then o.1.ending caller rest else some o.2

theorem ending_of_outlook? (h : (r.step now e).1.outlook? caller = some d)
    (rest : List (Nat × PoolEvent κ)) :
    r.ending caller ((now, e) :: rest) = (r.step now e).1.ending caller rest := by
  obtain ⟨a, hfound, -⟩ := Option.bind_eq_some_iff.mp h
  simp [ending, hfound]

theorem ending_of_none (h : (r.step now e).1.acquisition? caller = none)
    (rest : List (Nat × PoolEvent κ)) :
    r.ending caller ((now, e) :: rest) = some (r.step now e).2 := by
  simp [ending, h]

/-- Who has looked for what it was handed, and is not done, opens a connection. -/
theorem opening_of_collect (hd : r.outlook? caller = some d)
    (hb : (r.collect now caller).1.acquisition? caller = some b) : b.phase = .opening := by
  rcases r.collect_cases now caller with ⟨hnone, heq⟩ | ⟨a, ticket, d', hfound, hphase, -, heq⟩
  · rw [heq] at hb
    cases hphase : b.phase with
    | opening => rfl
    | queued ticket =>
        rw [outlook?_of_queued hb hphase, hnone ticket (ticketOf?_of_queued hb hphase)] at hd
        cases hd
  · obtain ⟨-, rfl⟩ := mem_of_acquisition? hfound
    rw [heq] at hb
    rcases (r.pickUp ticket).receive_outlook now a d' with ⟨-, hopening⟩ | ⟨hgone, -⟩
    · rw [hopening] at hb
      cases hb
      rfl
    · rw [hgone] at hb
      cases hb

/-- **Run theorem.**  After a shutdown every acquisition ends as it was going to, if its caller
looks for what it was handed and its connection is opened. -/
theorem ending_of_shutdown (h : r.Sound) (hc : r.pool.closed = true)
    (hd : r.outlook? caller = some d) {later : List (Nat × PoolEvent κ)}
    (hquits : ∀ e ∈ later, ¬e.2.Quits caller) (now now' : Nat) (connection : κ) :
    r.ending caller (later ++ [(now, .collect caller), (now', .opened caller (.ok connection))]) =
      some d.verdict := by
  induction later generalizing r with
  | nil =>
      have hcollects : ¬(PoolEvent.collect (κ := κ) caller).Quits caller := by
        rintro (heq | ⟨error, heq⟩) <;> cases heq
      have hopens : ¬(PoolEvent.opened caller (.ok connection)).Quits caller := by
        rintro (heq | ⟨error, heq⟩) <;> cases heq
      rw [List.nil_append]
      rcases step_finds h hc hd hcollects now with hstill | ⟨hgone, hout⟩
      · have hnext := step_sound h now (.collect caller)
        have hclosed := step_closed h hc now (.collect caller)
        obtain ⟨b, hfound, -⟩ := Option.bind_eq_some_iff.mp hstill
        have hphase : b.phase = .opening := opening_of_collect hd hfound
        rw [ending_of_outlook? hstill]
        rcases step_finds hnext hclosed hstill hopens now' with hstuck | ⟨hgone, hout⟩
        · have hdone : ((r.step now (.collect caller)).1.step now'
              (.opened caller (.ok connection))).1.acquisition? caller = none := by
            simp only [step] at hfound hclosed ⊢
            simp only [opened, hfound, hphase, Pool.commitLeased, hclosed, if_true]
            exact acquisition?_endAcquisition _ _
          obtain ⟨c, hc, -⟩ := Option.bind_eq_some_iff.mp hstuck
          rw [hdone] at hc
          cases hc
        · rw [ending_of_none hgone, hout]
      · rw [ending_of_none hgone, hout]
  | cons e rest ih =>
      have hrest : ∀ e ∈ rest, ¬e.2.Quits caller := fun e he => hquits e (List.mem_cons_of_mem _ he)
      rw [List.cons_append]
      rcases step_finds h hc hd (hquits e List.mem_cons_self) e.1 with hstill | ⟨hgone, hout⟩
      · rw [ending_of_outlook? hstill]
        exact ih (step_sound h e.1 e.2) (step_closed h hc e.1 e.2) hstill hrest
      · rw [ending_of_none hgone, hout]

/-- What an acquisition was handed and has not picked up. -/
def handedTo? (r : PoolRun κ) (a : Acquisition) : Option (Delivery κ) :=
  a.ticket?.bind (r.pool.inbox.lookup ·)

/-- With a shutdown it is decided what the acquisitions under way are going to find: what they were
handed before, room if they open a connection, and else the notice of the shutdown. -/
theorem outlook?_shutdown (h : r.Sound) (ha : a ∈ r.acquisitions) (now : Nat) :
    ∃ d, (r.step now .shutdown).1.outlook? a.caller = some d ∧
      d.verdict = ((r.handedTo? a).getD .closed).verdict := by
  have hnext := step_sound h now .shutdown
  have hfound : (r.step now .shutdown).1.acquisition? a.caller = some a := by
    obtain ⟨pre, post, hsplit, hne⟩ := Keyed.exists_split (List.nodup_append.mp h.callers).1 ha
    simp only [step, acquisition?, hsplit]
    exact Keyed.find?_eq hne
  cases hphase : a.phase with
  | opening =>
      refine ⟨.room, outlook?_of_opening hfound hphase, ?_⟩
      simp [handedTo?, Acquisition.ticket?_of_opening hphase, Delivery.verdict]
  | queued ticket =>
      have hhanded : r.handedTo? a = r.pool.inbox.lookup ticket := by
        simp [handedTo?, Acquisition.ticket?_of_queued hphase]
      have hlookup {d : Delivery κ} (hd : (ticket, d) ∈ (r.step now .shutdown).1.pool.inbox) :
          (r.step now .shutdown).1.outlook? a.caller = some d := by
        rw [outlook?_of_queued hfound hphase]
        exact Keyed.lookup_eq_some (List.nodup_append.mp hnext.distinct).2.1 hd
      cases hd : r.pool.inbox.lookup ticket with
      | some d =>
          refine ⟨d, hlookup (List.mem_append_left _ (Keyed.mem_of_lookup hd)), ?_⟩
          rw [hhanded, hd, Option.getD_some]
      | none =>
          obtain ⟨w, hw, rfl⟩ := h.mem_waiters ha hphase hd
          refine ⟨.closed, hlookup (List.mem_append_right _ ?_), ?_⟩
          · exact List.mem_map.mpr ⟨w, hw, rfl⟩
          · rw [hhanded, hd, Option.getD_none]

/-- The notice of a shutdown is given by a pool that is closed. -/
def Noticed (r : PoolRun κ) : Prop :=
  ∀ ticket, (ticket, Delivery.closed) ∈ r.pool.inbox → r.pool.closed = true

/-- **Step theorem.**  Notice is given by the shutdown alone. -/
theorem step_noticed (h : r.Attended) (hnoticed : r.Noticed) (now : Nat) (e : PoolEvent κ) :
    (r.step now e).1.Noticed := by
  intro ticket hin
  cases step_queueStep h now e with
  | serves inbox hsub hq _ =>
      obtain ⟨batch, -, hinbox, hsuits⟩ := hq.served
      rw [hinbox] at hin
      rcases List.mem_append.mp hin with hin | hin
      · exact hq.closed (hnoticed ticket (hsub.subset hin))
      · obtain ⟨⟨w, d⟩, hd, heq⟩ := List.mem_map.mp hin
        cases heq
        exact hsuits _ hd
  | leaves ticket' meters _ hq =>
      rw [hq] at hin ⊢
      exact hnoticed ticket hin
  | joins url _ hq =>
      simp only [Prod.mk.injEq] at hq
      obtain ⟨-, -, hinbox, hclosed⟩ := hq
      rw [hinbox] at hin
      rw [hclosed]
      exact hnoticed ticket hin

theorem run_noticed (h : r.Sound) (hnoticed : r.Noticed) (events : List (Nat × PoolEvent κ)) :
    (r.run events).Noticed := by
  induction events generalizing r with
  | nil => exact hnoticed
  | cons e rest ih => exact ih (step_sound h e.1 e.2) (step_noticed h.toAttended hnoticed e.1 e.2)

/-- Who picks up the notice of a shutdown picks it up from a closed pool. -/
theorem closed_of_receive (hnoticed : r.Noticed) {ticket : Nat}
    (hd : r.pool.inbox.lookup ticket = some d)
    (hout : ((r.pickUp ticket).receive now a d).2 = .refused .poolClosed) :
    r.pool.closed = true := by
  cases d with
  | connection l => cases hout
  | room => cases hout
  | closed => exact hnoticed ticket (Keyed.mem_of_lookup hd)

/-- Who asks is told of a shutdown by a closed pool. -/
theorem closed_of_acquire {baseUrl : Option String}
    (hout : (r.acquire now caller baseUrl).2 = .refused .poolClosed) : r.pool.closed = true := by
  simp only [acquire] at hout
  split at hout
  · cases hout
  split at hout
  · assumption
  split at hout
  · cases hout
  · split at hout
    · cases hout
    · split at hout
      · cases hout
      · split at hout <;> cases hout

/-- Who has had a connection opened is told so, too, unless that is why it could not be. -/
theorem closed_of_opened {result : Except RoutingError κ}
    (hout : (r.opened now caller result).2 = .refused .poolClosed) :
    r.pool.closed = true ∨ result = .error .poolClosed := by
  unfold opened at hout
  split at hout
  · split at hout
    · cases hc : r.pool.closed with
      | true => exact .inl rfl
      | false =>
          simp only [Pool.commitLeased, hc, Bool.false_eq_true, if_false] at hout
          cases hout
    · cases hout
      exact .inr rfl
    · cases hout
  · cases hout

/-- Who looks for what it was handed is told by the notice. -/
theorem closed_of_collect (hnoticed : r.Noticed)
    (hout : (r.collect now caller).2 = .refused .poolClosed) : r.pool.closed = true := by
  rcases r.collect_cases now caller with ⟨-, heq⟩ | ⟨a, ticket, d, -, -, hd, heq⟩
  · rw [heq] at hout
    cases hout
  · rw [heq] at hout
    exact closed_of_receive hnoticed hd hout

/-- So is who has waited long enough. -/
theorem closed_of_expire (hnoticed : r.Noticed)
    (hout : (r.expire now caller).2 = .refused .poolClosed) : r.pool.closed = true := by
  rcases r.expire_cases now caller with ⟨-, heq⟩ | ⟨a, ticket, -, -, ⟨d, hd, heq⟩ | ⟨-, heq⟩⟩
  · rw [heq] at hout
    cases hout
  · rw [heq] at hout
    exact closed_of_receive hnoticed hd hout
  · rw [heq] at hout
    cases hout

/-- What is not about a caller refuses nobody. -/
theorem refuses_nobody (r : PoolRun κ) (now : Nat) (hcaller : e.caller? = none)
    (error : RoutingError) : (r.step now e).2 ≠ .refused error := by
  have hfill (id : Nat) : (r.fill id).2 ≠ .refused error := by
    unfold fill
    split <;> rintro ⟨⟩
  cases e with
  | sweep id =>
      simp only [step, sweep]
      split
      · rintro ⟨⟩
      · split <;> rintro ⟨⟩
  | warm id =>
      simp only [step]
      split
      · rintro ⟨⟩
      · exact hfill id
  | probed id results =>
      simp only [step, probed]
      split <;> rintro ⟨⟩
  | refill id =>
      simp only [step, refill]
      split
      · exact hfill id
      · rintro ⟨⟩
  | warmed id result =>
      simp only [step, warmed]
      split
      · split <;> rintro ⟨⟩
      · rintro ⟨⟩
      · rintro ⟨⟩
  | abandonSweep id => rintro ⟨⟩
  | shutdown => rintro ⟨⟩
  | _ => cases hcaller

/-- Nobody is told that the pool was shut down but by a closed pool, or by the one that could not
open the connection. -/
theorem closed_of_refused (hnoticed : r.Noticed)
    (hout : (r.step now e).2 = .refused .poolClosed) :
    r.pool.closed = true ∨ ∃ caller, e = .opened caller (.error .poolClosed) := by
  cases e with
  | acquire caller baseUrl => exact .inl (closed_of_acquire hout)
  | opened caller result =>
      refine (closed_of_opened hout).imp_right fun hresult => ?_
      rw [hresult]
      exact ⟨caller, rfl⟩
  | collect caller => exact .inl (closed_of_collect hnoticed hout)
  | expire caller => exact .inl (closed_of_expire hnoticed hout)
  | abandon caller => cases hout
  | release caller => cases hout
  | flag caller => cases hout
  | _ => exact absurd hout (r.refuses_nobody now rfl _)

/-- **Shutdown is final.**  Nobody is told that the pool was shut down before it was.  After a
shutdown the pool has no connections and no queue, whatever happens.  Its reservations are those of
the connections still being opened and of the room still to be picked up, so there are none when
these have ended, and each is given back once.  Who asks for a connection is refused.  An
acquisition that was under way is refused too, unless a connection had been handed to it: so it
ends, whatever happens meanwhile, when its caller has looked for what it was handed and its
connection has been opened. -/
theorem run_shutdown_is_final (config : PoolConfig) (hmax : 1 ≤ config.maxSize)
    (hmin : config.minSize ≤ config.maxSize) :
    ∃ p : Pool κ, Pool.new config = .ok p ∧ ∀ events : List (Nat × PoolEvent κ),
      let r := ({ pool := p } : PoolRun κ).run events
      (∀ now e, (r.step now e).2 = .refused .poolClosed →
        (∃ time, (time, .shutdown) ∈ events) ∨ ∃ caller, e = .opened caller (.error .poolClosed)) ∧
      ∀ now later,
        let s := (r.step now .shutdown).1
        let t := s.run later
        (t.pool.closed = true ∧ t.pool.slots = [] ∧ t.pool.waiters = []) ∧
        t.pool.pending = t.openings + t.pool.rooms ∧
        (∀ now e, (t.GivesBack e → (t.step now e).1.pool.pending + 1 = t.pool.pending) ∧
          (¬t.GivesBack e → (t.step now e).1.pool.pending = t.pool.pending)) ∧
        (∀ now caller url, t.isBusy caller = false →
          t.step now (.acquire caller url) = (t, .refused .poolClosed)) ∧
        ∀ a ∈ r.acquisitions, (∀ e ∈ later, ¬e.2.Quits a.caller) → ∀ now now' connection,
          s.ending a.caller (later ++
            [(now, .collect a.caller), (now', .opened a.caller (.ok connection))]) =
              some ((r.handedTo? a).getD .closed).verdict := by
  have hp : Pool.new (κ := κ) config = .ok { config } := Pool.new_eq_ok hmax hmin
  refine ⟨{ config }, hp, fun events => ?_⟩
  have hnew : ({ pool := { config } } : PoolRun κ).Sound := sound_new hp
  have h := run_sound hnew events
  have hnoticed := run_noticed hnew (fun _ hin => absurd hin List.not_mem_nil) events
  intro r
  refine ⟨fun now e hout => ?_, ?_⟩
  · exact (closed_of_refused hnoticed hout).imp_left (closed_of_run hnew rfl events)
  intro now later s t
  have hs : s.Sound := step_sound h now .shutdown
  have ht : t.Sound := run_sound hs later
  have hc : t.pool.closed = true := run_closed hs rfl later
  refine ⟨⟨hc, ht.settled.emptied hc⟩, ht.settled.reserved, ?_, ?_, ?_⟩
  · intro now e
    have hwanes := step_wanes ht hc now e
    exact ⟨hwanes.given, hwanes.kept⟩
  · intro now caller url hfree
    simp only [step, acquire, hfree, hc, Bool.false_eq_true, if_false, if_true]
  · intro a ha hquits now' now'' connection
    obtain ⟨d, hd, hverdict⟩ := outlook?_shutdown h ha now
    rw [ending_of_shutdown hs rfl hd hquits now' now'' connection, hverdict]

/-- A pool of one place is shut down while it opens a connection for one caller and another one
waits: both are refused, the place is given back, and a third caller is refused at once. -/
theorem run_shutdown_is_final_two :
    ∃ p : Pool Unit, Pool.new { maxSize := 1, minSize := 0 } = .ok p ∧
      let r := ({ pool := p } : PoolRun Unit).run [(0, .acquire 1 none), (0, .acquire 2 none)]
      let s := (r.step 1 .shutdown).1
      let ends (caller : Nat) : List (Nat × PoolEvent Unit) :=
        [(2, .collect caller), (2, .opened caller (.ok ()))]
      s.pool.pending = 1 ∧ (s.run (ends 1)).pool.pending = 0 ∧
        s.ending 1 (ends 1) = some (.refused .poolClosed) ∧
        s.ending 2 (ends 2) = some (.refused .poolClosed) ∧
        s.step 3 (.acquire 3 none) = (s, .refused .poolClosed) := by
  obtain ⟨p, hp, hrun⟩ := run_shutdown_is_final (κ := Unit) { maxSize := 1, minSize := 0 }
    (by decide) (by decide)
  obtain ⟨-, hfinal⟩ := hrun [(0, .acquire 1 none), (0, .acquire 2 none)]
  cases hp
  obtain ⟨-, -, -, hrefused, hends⟩ := hfinal 1 []
  have hquits : ∀ caller, ∀ e ∈ ([] : List (Nat × PoolEvent Unit)), ¬e.2.Quits caller :=
    fun _ e he => absurd he List.not_mem_nil
  refine ⟨_, rfl, rfl, rfl, ?_, ?_, hrefused 3 3 none rfl⟩
  · exact hends _ List.mem_cons_self (hquits 1) 2 2 ()
  · exact hends _ (List.mem_cons_of_mem _ List.mem_cons_self) (hquits 2) 2 2 ()

end PoolRun

end InferenceRouting
