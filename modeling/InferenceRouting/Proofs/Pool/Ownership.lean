import InferenceRouting.Proofs.Pool.Soundness

/-!
# Who owns a connection

The owners of connections are the callers that hold a lease and the handoffs that are not yet picked
up.  A step takes a connection from its owner only when the owner itself gives it up, and it grants
a connection to a caller only for the address this caller asked for (`Traced`).
-/

namespace InferenceRouting

/-- The caller an event is about. -/
def PoolEvent.caller? {κ : Type} : PoolEvent κ → Option Nat
  | .acquire caller _ => some caller
  | .opened caller _ => some caller
  | .collect caller => some caller
  | .expire caller => some caller
  | .abandon caller => some caller
  | .release caller => some caller
  | .flag caller => some caller
  | _ => none

/-- The lease that comes of an event. -/
def PoolOutcome.lease? {κ : Type} : PoolOutcome κ → Option (Lease κ)
  | .granted l => some l
  | _ => none

/-- What has been handed over stays so while the queue is served. -/
theorem Pool.Serves.handed {κ : Type} {p q : Pool κ} (h : p.Serves q) {l : Lease κ}
    (hl : l ∈ p.handed) : l ∈ q.handed := by
  obtain ⟨batch, -, hinbox, -⟩ := h.served
  unfold Pool.handed
  rw [hinbox, List.filterMap_append]
  exact List.mem_append_left _ hl

/-- What has been handed over stays so when a ticket picks up what it was handed. -/
theorem Pool.handed_pickUp {κ : Type} {p : Pool κ} (hn : p.tickets.Nodup) {ticket : Nat}
    {d : Delivery κ} (hd : p.inbox.lookup ticket = some d) {l : Lease κ} (hl : l ∈ p.handed) :
    l ∈ ({ p with inbox := p.inbox.filter (·.1 ≠ ticket) } : Pool κ).handed ∨
      d = .connection l := by
  obtain ⟨pre, post, hsplit, hrest⟩ := Pool.exists_handed hn hd
  unfold Pool.handed at hl ⊢
  rw [hsplit, List.filterMap_append, List.filterMap_cons] at hl
  rw [hrest, List.filterMap_append]
  cases d with
  | connection k =>
      have hmem : l ∈ pre.filterMap (·.2.lease?) ∨ l = k ∨ l ∈ post.filterMap (·.2.lease?) := by
        simpa [Delivery.lease?] using hl
      rcases hmem with hl | rfl | hl
      · exact .inl (List.mem_append_left _ hl)
      · exact .inr rfl
      · exact .inl (List.mem_append_right _ hl)
  | room => exact .inl hl
  | closed => exact .inl hl

namespace PoolRun

variable {κ : Type} {r : PoolRun κ} {a : Acquisition} {e : PoolEvent κ}
  {o : PoolRun κ × PoolOutcome κ}

/-- The leases somebody owns: those held by callers and those handed over. -/
def owners (r : PoolRun κ) : List (Lease κ) :=
  r.leases ++ r.pool.handed

/-- With an event the owner of a lease gives it up: its holder releases it, or goes away before it
has picked it up. -/
def GivesUp (r : PoolRun κ) (e : PoolEvent κ) (l : Lease κ) : Prop :=
  match e with
  | .release caller => r.lease? caller = some l
  | .abandon caller => ∃ a ticket, r.acquisition? caller = some a ∧ a.phase = .queued ticket ∧
      r.pool.inbox.lookup ticket = some (.connection l)
  | _ => False

/-- The address each caller asked for last, when an event has happened.  What a caller asks for
while it has something else under way is not taken up. -/
def note (r : PoolRun κ) (urls : Nat → Option String) (e : PoolEvent κ) : Nat → Option String :=
  match e with
  | .acquire caller baseUrl => fun c =>
      if c = caller ∧ r.isBusy caller = false then
        some (baseUrl.getD r.pool.config.defaultBaseUrl)
      else urls c
  | _ => urls

/-- The address each caller asked for last in the course of some events. -/
def asked (r : PoolRun κ) (urls : Nat → Option String) :
    List (Nat × PoolEvent κ) → Nat → Option String
  | [] => urls
  | e :: rest => (r.step e.1 e.2).1.asked (r.note urls e.2) rest

/-- The acquisitions under way are for the addresses their callers asked for last. -/
def Noted (r : PoolRun κ) (urls : Nat → Option String) : Prop :=
  ∀ a ∈ r.acquisitions, urls a.caller = some a.baseUrl

/-- What an event may do to owners and to those that ask for a connection. -/
structure Traced (r : PoolRun κ) (e : PoolEvent κ) (o : PoolRun κ × PoolOutcome κ) : Prop where
  config : o.1.pool.config = r.pool.config
  kept : ∀ l ∈ r.owners, l ∈ o.1.owners ∨ r.GivesUp e l
  noted : ∀ urls, r.Noted urls → o.1.Noted (r.note urls e)
  granted : ∀ l, o.2 = .granted l → ∃ caller, e.caller? = some caller ∧
    (caller, l) ∈ o.1.holders ∧ ∀ urls, r.Noted urls → r.note urls e caller = some l.baseUrl

/-- What a caller asks for is noted unless it is busy. -/
theorem note_of_mem (ha : a ∈ r.acquisitions) (urls : Nat → Option String) (e : PoolEvent κ) :
    r.note urls e a.caller = urls a.caller := by
  cases e with
  | acquire caller baseUrl =>
      apply if_neg
      intro hnew
      obtain ⟨rfl, hfree⟩ := hnew
      exact free_of_isBusy hfree (List.mem_append_left _ (List.mem_map_of_mem ha))
  | _ => rfl

namespace Traced

/-- An event that grants nothing, begins no acquisition and takes nothing from an owner. -/
theorem quiet (hconfig : o.1.pool.config = r.pool.config)
    (hhanded : ∀ l ∈ r.pool.handed, l ∈ o.1.pool.handed) (hholders : o.1.holders = r.holders)
    (hasks : ∀ b ∈ o.1.acquisitions, ∃ a ∈ r.acquisitions, a.caller = b.caller ∧
      a.baseUrl = b.baseUrl)
    (hout : o.2.lease? = none) : Traced r e o := by
  refine ⟨hconfig, ?_, ?_, ?_⟩
  · intro l hl
    left
    rcases List.mem_append.mp hl with hl | hl
    · apply List.mem_append_left
      unfold leases at hl ⊢
      rw [hholders]
      exact hl
    · exact List.mem_append_right _ (hhanded l hl)
  · intro urls hurls b hb
    obtain ⟨a, ha, hcaller, hurl⟩ := hasks b hb
    rw [← hcaller, ← hurl, note_of_mem ha]
    exact hurls a ha
  · intro l hl
    rw [hl] at hout
    cases hout

/-- An event that changes the pool alone, serving the queue at most. -/
theorem serves {q : Pool κ} (hq : r.pool.Serves q) {acquisitions : List Acquisition}
    (hsub : ∀ b ∈ acquisitions, b ∈ r.acquisitions) (sweeps : List (Nat × SweepPhase))
    {out : PoolOutcome κ} (hout : out.lease? = none) :
    Traced r e ({ r with pool := q, acquisitions, sweeps }, out) :=
  quiet hq.config (fun _ => hq.handed) rfl (fun b hb => ⟨b, hsub b hb, rfl, rfl⟩) hout

/-- An event without effect. -/
theorem same {out : PoolOutcome κ} (hout : out.lease? = none) : Traced r e (r, out) :=
  serves (Pool.Serves.refl r.pool) (fun _ hb => hb) r.sweeps hout

/-- An event that grants a lease, which may have been handed over before. -/
theorem grant {q : Pool κ} {l : Lease κ} (hconfig : q.config = r.pool.config)
    (hhanded : ∀ k ∈ r.pool.handed, k ∈ q.handed ∨ k = l) (he : e.caller? = some a.caller)
    (hurl : ∀ urls, r.Noted urls → r.note urls e a.caller = some l.baseUrl) (now : Nat) :
    Traced r e (({ r with pool := q } : PoolRun κ).grant now a l) := by
  have hheld : (a.caller, l) ∈ (({ r with pool := q } : PoolRun κ).grant now a l).1.holders :=
    List.mem_append_right _ (List.mem_singleton_self _)
  refine ⟨hconfig, ?_, ?_, ?_⟩
  · intro k hk
    left
    rcases List.mem_append.mp hk with hk | hk
    · apply List.mem_append_left
      obtain ⟨x, hx, rfl⟩ := List.mem_map.mp hk
      exact List.mem_map_of_mem (List.mem_append_left _ hx)
    · rcases hhanded k hk with hk | rfl
      · exact List.mem_append_right _ hk
      · exact List.mem_append_left _ (List.mem_map_of_mem hheld)
  · intro urls hurls b hb
    have hb : b ∈ r.acquisitions := (List.mem_filter.mp hb).1
    rw [note_of_mem hb]
    exact hurls b hb
  · intro k hk
    cases hk
    exact ⟨a.caller, he, hheld, hurl⟩

/-- An event that begins an acquisition, for the address noted. -/
theorem begins {q : Pool κ} (hconfig : q.config = r.pool.config)
    (hinbox : q.inbox = r.pool.inbox) (hnote : ∀ urls, r.note urls e a.caller = some a.baseUrl)
    {out : PoolOutcome κ} (hout : out.lease? = none) :
    Traced r e (({ r with pool := q } : PoolRun κ).await a, out) := by
  have hhanded : q.handed = r.pool.handed := by
    unfold Pool.handed
    rw [hinbox]
  refine ⟨hconfig, ?_, ?_, ?_⟩
  · intro l hl
    left
    show l ∈ r.leases ++ q.handed
    rw [hhanded]
    exact hl
  · intro urls hurls b hb
    rcases List.mem_append.mp hb with hb | hb
    · have hb : b ∈ r.acquisitions := (List.mem_filter.mp hb).1
      rw [note_of_mem hb]
      exact hurls b hb
    · obtain rfl := List.mem_singleton.mp hb
      exact hnote urls
  · intro l hl
    have hl : out = .granted l := hl
    rw [hl] at hout
    cases hout

end Traced

/-- An acquisition that looks for what it was handed. -/
theorem collectFor_traced (h : r.Sound) (ha : a ∈ r.acquisitions) {ticket : Nat}
    (hphase : a.phase = .queued ticket) (he : e.caller? = some a.caller) {now : Nat}
    (ho : r.collectFor now a ticket = some o) : Traced r e o := by
  obtain ⟨d, hd, rfl⟩ := exists_of_collectFor ho
  let q : Pool κ := (r.pickUp ticket).pool
  have hhanded : ∀ k ∈ r.pool.handed, k ∈ q.handed ∨ d = .connection k :=
    fun k hk => Pool.handed_pickUp h.distinct hd hk
  cases d with
  | connection l =>
      have hurl : l.baseUrl = a.baseUrl :=
        (h.addressed a ha ticket hphase).2 l (Keyed.mem_of_lookup hd)
      refine Traced.grant (r := r) (q := q) rfl ?_ he ?_ now
      · intro k hk
        rcases hhanded k hk with hk | heq
        · exact .inl hk
        · cases heq
          exact .inr rfl
      · intro urls hurls
        rw [note_of_mem ha, hurl]
        exact hurls a ha
  | room =>
      have hkept : ∀ k ∈ r.pool.handed, k ∈ q.handed :=
        fun k hk => (hhanded k hk).resolve_right fun heq => by cases heq
      refine Traced.quiet rfl hkept rfl ?_ rfl
      intro b hb
      rcases List.mem_append.mp hb with hb | hb
      · exact ⟨b, (List.mem_filter.mp hb).1, rfl, rfl⟩
      · obtain rfl := List.mem_singleton.mp hb
        exact ⟨a, ha, rfl, rfl⟩
  | closed =>
      have hkept : ∀ k ∈ r.pool.handed, k ∈ q.handed :=
        fun k hk => (hhanded k hk).resolve_right fun heq => by cases heq
      exact Traced.quiet rfl hkept rfl (fun b hb => ⟨b, (List.mem_filter.mp hb).1, rfl, rfl⟩) rfl

theorem collect_traced (h : r.Sound) (now caller : Nat) :
    Traced r (.collect caller) (r.collect now caller) := by
  unfold collect
  split
  · rename_i a hfound
    obtain ⟨ha, rfl⟩ := mem_of_acquisition? hfound
    split
    · rename_i ticket hphase
      cases ho : r.collectFor now a ticket with
      | none => exact .same rfl
      | some o => exact collectFor_traced h ha hphase rfl ho
    · exact .same rfl
  · exact .same rfl

theorem expire_traced (h : r.Sound) (now caller : Nat) :
    Traced r (.expire caller) (r.expire now caller) := by
  unfold expire
  split
  · rename_i a hfound
    obtain ⟨ha, rfl⟩ := mem_of_acquisition? hfound
    split
    · rename_i ticket hphase
      split
      · rename_i o ho
        exact collectFor_traced h ha hphase rfl ho
      · exact .quiet rfl (fun _ hk => hk) rfl
          (fun b hb => ⟨b, (List.mem_filter.mp hb).1, rfl, rfl⟩) rfl
    · exact .same rfl
  · exact .same rfl

/-- A caller that goes away gives up what it was handed. -/
theorem abandon_traced (h : r.Sound) (now caller : Nat) :
    Traced r (.abandon caller) (r.abandon now caller, .nothing) := by
  unfold abandon
  split
  · exact .same rfl
  · rename_i a hfound
    obtain ⟨ha, rfl⟩ := mem_of_acquisition? hfound
    dsimp only
    have hrest : ∀ b ∈ (r.endAcquisition a.caller).acquisitions, b ∈ r.acquisitions :=
      fun b hb => (List.mem_filter.mp hb).1
    split
    · exact .serves (Pool.dropReservation_serves r.pool) hrest r.sweeps rfl
    · rename_i ticket hphase
      split
      · rename_i d hd
        have hserved := Pool.reclaim_serves
          { r.pool with inbox := r.pool.inbox.filter (·.1 ≠ ticket) } now d
        refine ⟨hserved.config, ?_, fun urls hurls b hb => hurls b (hrest b hb), ?_⟩
        · intro l hl
          rcases List.mem_append.mp hl with hl | hl
          · exact .inl (List.mem_append_left _ hl)
          · rcases Pool.handed_pickUp h.distinct hd hl with hl | rfl
            · exact .inl (List.mem_append_right _ (hserved.handed hl))
            · exact .inr ⟨a, ticket, hfound, hphase, hd⟩
        · intro l hl
          cases hl
      · exact .quiet rfl (fun _ hk => hk) rfl (fun b hb => ⟨b, hrest b hb, rfl, rfl⟩)
          rfl

theorem opened_traced (h : r.Sound) (now caller : Nat) (result : Except RoutingError κ) :
    Traced r (.opened caller result) (r.opened now caller result) := by
  unfold opened
  split
  · rename_i a hfound
    obtain ⟨ha, rfl⟩ := mem_of_acquisition? hfound
    have hrest : ∀ b ∈ (r.endAcquisition a.caller).acquisitions, b ∈ r.acquisitions :=
      fun b hb => (List.mem_filter.mp hb).1
    split
    · rename_i connection hphase
      have hpool := h.settled
      rw [openings_finish_opening h.toAttended ha hphase] at hpool
      have hserved := Pool.commitLeased_serves r.pool now a.baseUrl connection
      rcases hpool.commitLeased now a.baseUrl connection with
        ⟨q, l, hcommit, hurl, -⟩ | ⟨q, hcommit, -⟩
      · rw [hcommit] at hserved ⊢
        have hnoted (urls : Nat → Option String) (hurls : r.Noted urls) :
            r.note urls (.opened a.caller (.ok connection)) a.caller = some l.baseUrl := by
          rw [note_of_mem ha, hurl]
          exact hurls a ha
        exact .grant hserved.config (fun k hk => .inl (hserved.handed hk)) rfl hnoted now
      · rw [hcommit] at hserved ⊢
        exact .serves hserved hrest r.sweeps rfl
    · exact .serves (Pool.dropReservation_serves r.pool) hrest r.sweeps rfl
    · exact .same rfl
  · exact .same rfl

/-- A caller that gives its connection back gives up that one alone. -/
theorem release_traced (h : r.Sound) (now caller : Nat) :
    Traced r (.release caller) (r.release now caller, .nothing) := by
  unfold release
  split
  · exact .same rfl
  · rename_i l hl
    have hserved := Pool.release_serves r.pool now l.id
    refine ⟨hserved.config, ?_, fun urls hurls => hurls, ?_⟩
    · intro k hk
      rcases List.mem_append.mp hk with hk | hk
      · rcases List.mem_cons.mp ((h.exists_held hl).mem_iff.mpr hk) with rfl | hk
        · exact .inr hl
        · exact .inl (List.mem_append_left _ hk)
      · exact .inl (List.mem_append_right _ (hserved.handed hk))
    · intro k hk
      cases hk

theorem fill_traced (r : PoolRun κ) (e : PoolEvent κ) (id : Nat) : Traced r e (r.fill id) := by
  unfold fill
  split
  · rename_i q hq
    unfold Pool.reserveWarm? at hq
    split at hq
    · cases hq
    · cases hq
      exact .quiet rfl (fun _ hk => hk) rfl (fun b hb => ⟨b, hb, rfl, rfl⟩) rfl
  · exact .quiet rfl (fun _ hk => hk) rfl (fun b hb => ⟨b, hb, rfl, rfl⟩) rfl

/-- What a sweep does, it does to the pool alone. -/
theorem sweep_traced (r : PoolRun κ) (now id : Nat) :
    Traced r (.sweep id) (r.sweep now id) := by
  unfold sweep
  split
  · exact .same rfl
  · split
    · exact .same rfl
    · rename_i q candidates hq
      exact .serves (Pool.beginSweep?_serves hq) (fun _ hb => hb) _ rfl

/-- What the opening of a connection for a sweep does, it does to the pool alone. -/
theorem warmed_traced (r : PoolRun κ) (now id : Nat) (result : Except RoutingError κ) :
    Traced r (.warmed id result) (r.warmed now id result) := by
  unfold warmed
  split
  · rename_i connection hphase
    have hserved := Pool.commitIdle_serves r.pool now r.pool.config.defaultBaseUrl connection
    split
    · rename_i q hcommit
      rw [hcommit] at hserved
      exact .serves hserved (fun _ hb => hb) _ rfl
    · rename_i q hcommit
      rw [hcommit] at hserved
      exact .serves hserved (fun _ hb => hb) _ rfl
  · exact .serves (Pool.dropReservation_serves r.pool) (fun _ hb => hb) _ rfl
  · exact .same rfl

/-- A caller that joins the queue, for the address noted. -/
theorem joinQueue_traced {p : Pool κ} (hconfig : p.config = r.pool.config)
    (hinbox : p.inbox = r.pool.inbox) {caller : Nat} {url : String}
    (hnote : ∀ urls, r.note urls e caller = some url) (now : Nat) :
    Traced r e (({ r with pool := p } : PoolRun κ).joinQueue now caller url) := by
  exact Traced.begins (a := ⟨caller, url, now, .queued (p.lastId + 1)⟩)
    (q := { p with lastId := p.lastId + 1, waiters := p.waiters ++ [⟨p.lastId + 1, url⟩] })
    hconfig hinbox hnote rfl

theorem beginOpening_traced {p : Pool κ} (hconfig : p.config = r.pool.config)
    (hinbox : p.inbox = r.pool.inbox) {caller : Nat} {url : String}
    (hnote : ∀ urls, r.note urls e caller = some url) (now : Nat) :
    Traced r e (({ r with pool := p } : PoolRun κ).beginOpening now caller url) := by
  exact Traced.begins (a := ⟨caller, url, now, .opening⟩)
    (q := { p with pending := p.pending + 1 }) hconfig hinbox hnote rfl

theorem acquire_traced (r : PoolRun κ) (now caller : Nat) (baseUrl : Option String) :
    Traced r (.acquire caller baseUrl) (r.acquire now caller baseUrl) := by
  unfold acquire
  dsimp only
  split
  · exact .same rfl
  rename_i hbusy
  have hnew : r.isBusy caller = false := Bool.eq_false_iff.mpr hbusy
  split
  · exact .same rfl
  have hnote (urls : Nat → Option String) : r.note urls (.acquire caller baseUrl) caller =
      some (baseUrl.getD r.pool.config.defaultBaseUrl) := if_pos ⟨rfl, hnew⟩
  generalize baseUrl.getD r.pool.config.defaultBaseUrl = url at hnote ⊢
  split
  · rename_i s hfor
    obtain ⟨-, -, rfl⟩ := Pool.of_idleFor? hfor
    exact Traced.grant (a := ⟨caller, s.baseUrl, now, .opening⟩) (l := Pool.lease s)
      (q := Pool.checkout { r.pool with totalRequests := r.pool.totalRequests + 1 } now s.id)
      rfl (fun _ hk => .inl hk) rfl (fun urls _ => hnote urls) now
  · split
    · exact joinQueue_traced (by rfl) (by rfl) hnote now
    · split
      · exact beginOpening_traced (by rfl) (by rfl) hnote now
      · split
        · exact beginOpening_traced (by rfl) (by rfl) hnote now
        · exact joinQueue_traced (by rfl) (by rfl) hnote now

/-- **Step theorem.**  Every event leaves connections with their owners unless they are given up,
and grants them for the addresses asked for. -/
theorem step_traced (h : r.Sound) (now : Nat) (e : PoolEvent κ) : Traced r e (r.step now e) := by
  cases e with
  | acquire caller baseUrl => exact acquire_traced r now caller baseUrl
  | opened caller result => exact opened_traced h now caller result
  | collect caller => exact collect_traced h now caller
  | expire caller => exact expire_traced h now caller
  | abandon caller => exact abandon_traced h now caller
  | release caller => exact release_traced h now caller
  | flag caller =>
      simp only [step, flag]
      split
      · exact .same rfl
      · exact .quiet rfl (fun _ hk => hk) rfl (fun b hb => ⟨b, hb, rfl, rfl⟩) rfl
  | sweep id => exact sweep_traced r now id
  | warm id =>
      simp only [step]
      split
      · exact .same rfl
      · exact fill_traced r _ id
  | probed id results =>
      simp only [step, probed]
      split
      · exact .serves (Pool.applyProbes_serves r.pool results) (fun _ hb => hb) _ rfl
      · exact .same rfl
  | refill id =>
      simp only [step, refill]
      split
      · exact fill_traced r _ id
      · exact .same rfl
  | warmed id result => exact warmed_traced r now id result
  | abandonSweep id =>
      simp only [step, abandonSweep]
      split
      · exact .serves (Pool.dropReservation_serves r.pool) (fun _ hb => hb) _ rfl
      · exact .quiet rfl (fun _ hk => hk) rfl (fun b hb => ⟨b, hb, rfl, rfl⟩) rfl
      · exact .same rfl
  | shutdown =>
      exact .serves (Pool.shutdown_serves r.pool) (fun _ hb => hb) r.sweeps rfl

/-- The configuration of a pool stays as it is. -/
theorem run_config (h : r.Sound) (events : List (Nat × PoolEvent κ)) :
    (r.run events).pool.config = r.pool.config := by
  induction events generalizing r with
  | nil => rfl
  | cons e rest ih =>
      exact (ih (step_sound h e.1 e.2)).trans (step_traced h e.1 e.2).config

/-- Acquisitions are for the addresses asked for throughout a run. -/
theorem run_noted (h : r.Sound) {urls : Nat → Option String} (hurls : r.Noted urls)
    (events : List (Nat × PoolEvent κ)) : (r.run events).Noted (r.asked urls events) := by
  induction events generalizing r urls with
  | nil => exact hurls
  | cons e rest ih =>
      exact ih (step_sound h e.1 e.2) ((step_traced h e.1 e.2).noted urls hurls)

/-- What was asked for up to one more event. -/
theorem asked_concat (r : PoolRun κ) (urls : Nat → Option String)
    (events : List (Nat × PoolEvent κ)) (e : Nat × PoolEvent κ) :
    r.asked urls (events ++ [e]) = (r.run events).note (r.asked urls events) e.2 := by
  induction events generalizing r urls with
  | nil => rfl
  | cons d rest ih => exact ih _ _

/-- A pool of a size that is allowed can be made, and everything is sound in it from then on. -/
theorem exists_run (config : PoolConfig) (hmax : 1 ≤ config.maxSize)
    (hmin : config.minSize ≤ config.maxSize) :
    ∃ p : Pool κ, Pool.new config = .ok p ∧ ∀ events : List (Nat × PoolEvent κ),
      (({ pool := p } : PoolRun κ).run events).Sound ∧
        (({ pool := p } : PoolRun κ).run events).pool.config = config := by
  have hp : Pool.new (κ := κ) config = .ok { config } := Pool.new_eq_ok hmax hmin
  exact ⟨{ config }, hp, fun events =>
    ⟨run_sound (sound_new hp) events, run_config (sound_new hp) events⟩⟩

/-- What is granted was asked for. -/
theorem granted_asked (h : r.Sound) {urls : Nat → Option String} (hurls : r.Noted urls)
    {now : Nat} {l : Lease κ} (hl : (r.step now e).2 = .granted l) :
    ∃ caller, e.caller? = some caller ∧ (caller, l) ∈ (r.step now e).1.holders ∧
      r.note urls e caller = some l.baseUrl := by
  obtain ⟨caller, hcaller, hheld, hnote⟩ := (step_traced h now e).granted l hl
  exact ⟨caller, hcaller, hheld, hnote urls hurls⟩

/-- **Exclusive leases.**  While the pool is open, the leases owned are those of the slots in use,
each owned once.  With no event but a shutdown does an owner lose its slot, unless it gives it up
itself.  What is granted to a caller is its own, and leads to the address this caller asked for. -/
theorem run_exclusive_leases (config : PoolConfig) (hmax : 1 ≤ config.maxSize)
    (hmin : config.minSize ≤ config.maxSize) :
    ∃ p : Pool κ, Pool.new config = .ok p ∧ ∀ events : List (Nat × PoolEvent κ),
      let r := ({ pool := p } : PoolRun κ).run events
      r.pool.config = config ∧
      (r.pool.closed = false →
        r.owners.Perm ((r.pool.slots.filter (·.inUse)).map Pool.lease) ∧
          (r.owners.map (·.id)).Nodup) ∧
      ∀ now e,
        let r' := (r.step now e).1
        (r'.pool.closed = false → ∀ l ∈ r.owners, ¬r.GivesUp e l →
          l ∈ r'.owners ∧ ∃ s ∈ r'.pool.slots, s.inUse = true ∧ Pool.lease s = l) ∧
        ∀ l, (r.step now e).2 = .granted l → ∃ caller, e.caller? = some caller ∧
          (caller, l) ∈ r'.holders ∧
          ({ pool := p } : PoolRun κ).asked (fun _ => none) (events ++ [(now, e)]) caller =
            some l.baseUrl ∧
          (r'.pool.closed = false →
            ∃ s ∈ r'.pool.slots, s.inUse = true ∧ Pool.lease s = l) := by
  obtain ⟨p, hp, hrun⟩ := exists_run (κ := κ) config hmax hmin
  refine ⟨p, hp, fun events => ?_⟩
  obtain ⟨h, hconfig⟩ := hrun events
  intro r
  have hnoted : r.Noted (({ pool := p } : PoolRun κ).asked (fun _ => none) events) :=
    run_noted (sound_new hp) (fun a ha => absurd ha List.not_mem_nil) events
  refine ⟨hconfig, fun hc => ⟨h.settled.owned hc, h.settled.nodup_owned hc⟩, ?_⟩
  intro now e
  have hnext := step_sound h now e
  refine ⟨?_, ?_⟩
  · intro hc l hl hgives
    have hkept := ((step_traced h now e).kept l hl).resolve_right hgives
    exact ⟨hkept, hnext.settled.of_owned hc hkept⟩
  · intro l hl
    obtain ⟨caller, hcaller, hheld, hnote⟩ := granted_asked h hnoted hl
    refine ⟨caller, hcaller, hheld, ?_, ?_⟩
    · rw [asked_concat]
      exact hnote
    · intro hc
      exact hnext.settled.of_owned hc (List.mem_append_left _ (List.mem_map_of_mem hheld))

/-- The caller for which a pool of one place opens a connection holds it and keeps it, whatever the
next event is but its own. -/
theorem run_exclusive_leases_opened :
    ∃ p : Pool Unit, Pool.new { maxSize := 1, minSize := 0 } = .ok p ∧
      let r := ({ pool := p } : PoolRun Unit).run
        [(0, .acquire 1 (some "a")), (0, .opened 1 (.ok ()))]
      r.owners = [⟨1, "a", ()⟩] ∧
        ∀ now sweep results, let r' := (r.step now (.probed sweep results)).1
          r'.pool.closed = false → ∃ s ∈ r'.pool.slots, s.inUse = true ∧
            Pool.lease s = ⟨1, "a", ()⟩ := by
  obtain ⟨p, hp, hrun⟩ := run_exclusive_leases (κ := Unit) { maxSize := 1, minSize := 0 }
    (by decide) (by decide)
  obtain ⟨-, -, hstep⟩ := hrun [(0, .acquire 1 (some "a")), (0, .opened 1 (.ok ()))]
  cases hp
  refine ⟨_, rfl, rfl, ?_⟩
  intro now sweep results r' hc
  have hkept := (hstep now (.probed sweep results)).1 hc ⟨1, "a", ()⟩ List.mem_cons_self
  exact (hkept fun hgives => hgives).2

end PoolRun

end InferenceRouting
