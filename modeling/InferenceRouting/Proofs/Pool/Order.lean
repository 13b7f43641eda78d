import InferenceRouting.Proofs.Pool.Capacity

/-!
# The order of service

A caller joins the queue at its end, and leaves it to be handed something, from the front, or because
it does not wait any longer (`QueueStep`).  A `QueueLog` notes who joins, who is served and who
leaves, and while the pool is open those served and those that wait are together in the order in
which they joined (`InOrder`).  Nobody is served past the queue, since no connection is idle while
there is one.
-/

namespace InferenceRouting

/-- What becomes of the callers in a queue, by their tickets, in the order of the events. -/
structure QueueLog where
  joined : List Nat := []
  /-- Those handed a connection or room for one. -/
  served : List Nat := []
  /-- Those whose time was over or who went away before they were served. -/
  left : List Nat := []

/-- Whether what is handed over is a connection or room for one. -/
def Delivery.isService {κ : Type} : Delivery κ → Bool
  | .closed => false
  | _ => true

/-- Whether a caller gets a connection or may open one. -/
def PoolOutcome.isService {κ : Type} : PoolOutcome κ → Bool
  | .granted _ | .open _ => true
  | _ => false

theorem Pool.Suits.isService {κ : Type} {w : Waiter} {d : Delivery κ} (h : Suits false w d) :
    d.isService = true := by
  cases d with
  | connection l => rfl
  | room => rfl
  | closed => cases h

namespace PoolRun

variable {κ : Type} {r r' : PoolRun κ} {a : Acquisition} {e : PoolEvent κ} {log : QueueLog}
  {q : Pool κ} {now caller ticket : Nat}

/-- The tickets in the queue. -/
def queue (r : PoolRun κ) : List Nat :=
  r.pool.waiters.map (·.id)

/-- The tickets that were handed a connection or room and have not picked it up. -/
def serviced (r : PoolRun κ) : List Nat :=
  (r.pool.inbox.filter (·.2.isService)).map (·.1)

/-- The ticket of a caller in the queue. -/
def place? (r : PoolRun κ) (caller : Nat) : Option Nat :=
  ((r.acquisition? caller).bind (·.ticket?)).filter (· ∈ r.queue)

/-- The ticket with which somebody leaves the queue unserved. -/
def leaver? (r : PoolRun κ) : PoolEvent κ → Option Nat
  | .expire caller => r.place? caller
  | .abandon caller => r.place? caller
  | _ => none

/-- Notes who joined, was served, and left when `r` became `r'` with an event. -/
def record (r r' : PoolRun κ) (e : PoolEvent κ) (log : QueueLog) : QueueLog where
  joined := log.joined ++ r'.queue.filter (· ∉ r.queue)
  served := log.served ++ r'.serviced.filter (· ∉ r.serviced)
  left := log.left ++ (r.leaver? e).toList

/-- The log after some events. -/
def history (r : PoolRun κ) (log : QueueLog) : List (Nat × PoolEvent κ) → QueueLog
  | [] => log
  | e :: rest =>
    let r' := (r.step e.1 e.2).1
    r'.history (r.record r' e.2 log) rest

/-- What an event does to the queue: callers are served from the front, perhaps after one has picked
up what it was handed; one leaves; or one joins at the end. -/
inductive QueueStep (r : PoolRun κ) (e : PoolEvent κ) (q : Pool κ) : Prop
  | serves (inbox : List (Nat × Delivery κ)) (hinbox : inbox.Sublist r.pool.inbox)
      (hq : ({ r.pool with inbox } : Pool κ).Serves q) (hleaver : r.leaver? e = none)
  | leaves (ticket : Nat) (meters : PoolMeters) (hleaver : r.leaver? e = some ticket)
      (hq : q = { r.pool with waiters := r.pool.waiters.filter (·.id ≠ ticket), meters })
  | joins (url : String) (hleaver : r.leaver? e = none)
      (hq : (q.lastId, q.waiters, q.inbox, q.closed) =
        (r.pool.lastId + 1, r.pool.waiters ++ [(⟨r.pool.lastId + 1, url⟩ : Waiter)], r.pool.inbox,
          r.pool.closed))

namespace QueueStep

theorem of_serves (hq : r.pool.Serves q) (hleaver : r.leaver? e = none) : QueueStep r e q :=
  .serves r.pool.inbox (.refl _) hq hleaver

theorem refl (hleaver : r.leaver? e = none) : QueueStep r e r.pool :=
  .of_serves (.refl r.pool) hleaver

/-- A pool that is open was open before. -/
theorem closed (h : QueueStep r e q) (hopen : q.closed = false) : r.pool.closed = false := by
  cases h with
  | serves inbox hinbox hq hleaver =>
      refine Bool.eq_false_iff.mpr fun hc => ?_
      rw [hq.closed hc] at hopen
      cases hopen
  | leaves ticket meters hleaver hq =>
      rw [hq] at hopen
      exact hopen
  | joins url hleaver hq =>
      simp only [Prod.mk.injEq] at hq
      exact hq.2.2.2.symm.trans hopen

end QueueStep

theorem place?_of_phase (hfound : r.acquisition? caller = some a) :
    r.place? caller = a.ticket?.filter (· ∈ r.queue) := by
  simp only [place?, hfound, Option.bind_some]

/-- Who opens a connection is not in the queue. -/
theorem place?_of_opening (hfound : r.acquisition? caller = some a) (hphase : a.phase = .opening) :
    r.place? caller = none := by
  rw [place?_of_phase hfound, Acquisition.ticket?_of_opening hphase]
  rfl

/-- Who was handed something is not in the queue. -/
theorem place?_of_handed (h : r.Attended) (hfound : r.acquisition? caller = some a)
    (hphase : a.phase = .queued ticket) {d : Delivery κ}
    (hd : r.pool.inbox.lookup ticket = some d) : r.place? caller = none := by
  obtain ⟨-, -, hdisjoint⟩ := List.nodup_append.mp h.distinct
  have hin : ticket ∈ r.pool.inbox.map (·.1) :=
    List.mem_map_of_mem (Keyed.mem_of_lookup hd)
  have hout : ticket ∉ r.queue := fun hqueue => hdisjoint ticket hqueue ticket hin rfl
  rw [place?_of_phase hfound, Acquisition.ticket?_of_queued hphase]
  simp [hout]

/-- Who waits and was handed nothing is in the queue. -/
theorem place?_of_queued (h : r.Attended) (hfound : r.acquisition? caller = some a)
    (hphase : a.phase = .queued ticket) (hd : r.pool.inbox.lookup ticket = none) :
    r.place? caller = some ticket := by
  obtain ⟨w, hw, hid⟩ := h.mem_waiters (mem_of_acquisition? hfound).1 hphase hd
  have hin : ticket ∈ r.queue := hid ▸ List.mem_map_of_mem hw
  rw [place?_of_phase hfound, Acquisition.ticket?_of_queued hphase]
  simp [hin]

/-- Who picks up what it was handed does so from what was handed over alone. -/
theorem collectFor_queueStep {o : PoolRun κ × PoolOutcome κ}
    (ho : r.collectFor now a ticket = some o) (hleaver : r.leaver? e = none) :
    QueueStep r e o.1.pool := by
  obtain ⟨d, -, rfl⟩ := exists_of_collectFor ho
  have hpicked (q : Pool κ) (hq : (r.pickUp ticket).pool.Serves q) : QueueStep r e q :=
    .serves _ List.filter_sublist hq hleaver
  cases d with
  | connection l => exact hpicked _ (.same rfl)
  | room => exact hpicked _ (.same rfl)
  | closed => exact hpicked _ (.same rfl)

theorem collect_queueStep (r : PoolRun κ) (now caller : Nat) :
    QueueStep r (.collect caller) (r.collect now caller).1.pool := by
  have hsame : QueueStep r (.collect caller) r.pool := .refl rfl
  unfold collect
  split
  · rename_i a hfound
    split
    · rename_i ticket hphase
      cases ho : r.collectFor now a ticket with
      | none => exact hsame
      | some o => exact collectFor_queueStep ho rfl
    · exact hsame
  · exact hsame

theorem expire_queueStep (h : r.Attended) (now caller : Nat) :
    QueueStep r (.expire caller) (r.expire now caller).1.pool := by
  unfold expire
  split
  · rename_i a hfound
    split
    · rename_i ticket hphase
      split
      · rename_i o ho
        obtain ⟨d, hd, -⟩ := exists_of_collectFor ho
        exact collectFor_queueStep ho (place?_of_handed h hfound hphase hd)
      · rename_i hnone
        have hd := lookup_of_collectFor hnone
        exact .leaves ticket _ (place?_of_queued h hfound hphase hd) rfl
    · rename_i hphase
      exact .refl (place?_of_opening hfound hphase)
  · rename_i hnone
    have hplace : r.place? caller = none := by simp [place?, hnone]
    exact .refl hplace

theorem abandon_queueStep (h : r.Attended) (now caller : Nat) :
    QueueStep r (.abandon caller) (r.abandon now caller).pool := by
  unfold abandon
  split
  · rename_i hnone
    have hplace : r.place? caller = none := by simp [place?, hnone]
    exact .refl hplace
  · rename_i a hfound
    dsimp only
    split
    · rename_i hphase
      exact .of_serves (Pool.dropReservation_serves r.pool) (place?_of_opening hfound hphase)
    · rename_i ticket hphase
      split
      · rename_i d hd
        exact .serves _ List.filter_sublist (Pool.reclaim_serves _ now d)
          (place?_of_handed h hfound hphase hd)
      · rename_i hd
        exact .leaves ticket r.pool.meters (place?_of_queued h hfound hphase hd) rfl

theorem opened_queueStep (r : PoolRun κ) (now caller : Nat) (result : Except RoutingError κ) :
    QueueStep r (.opened caller result) (r.opened now caller result).1.pool := by
  unfold opened
  split
  · rename_i a hfound
    split
    · rename_i connection hphase
      have hserved := Pool.commitLeased_serves r.pool now a.baseUrl connection
      split
      · rename_i q l hcommit
        rw [hcommit] at hserved
        have hrecorded : q.Serves (q.recordWait now a.started) := .same rfl
        exact .of_serves (hserved.trans hrecorded) rfl
      · rename_i q error hcommit
        rw [hcommit] at hserved
        exact .of_serves hserved rfl
    · exact .of_serves (Pool.dropReservation_serves r.pool) rfl
    · exact .refl rfl
  · exact .refl rfl

/-- An acquisition that begins serves nobody, and joins the queue at its end if at all. -/
theorem acquire_queueStep (r : PoolRun κ) (now caller : Nat) (baseUrl : Option String) :
    QueueStep r (.acquire caller baseUrl) (r.acquire now caller baseUrl).1.pool := by
  unfold acquire
  dsimp only
  split
  · exact .refl rfl
  split
  · exact .refl rfl
  generalize baseUrl.getD r.pool.config.defaultBaseUrl = url
  split
  · exact .of_serves (.same rfl) rfl
  · split
    · exact .joins url rfl rfl
    · split
      · exact .of_serves (.same rfl) rfl
      · split
        · exact .of_serves (.same rfl) rfl
        · exact .joins url rfl rfl

theorem fill_queueStep (hleaver : r.leaver? e = none) (id : Nat) :
    QueueStep r e (r.fill id).1.pool := by
  unfold fill
  split
  · rename_i q hq
    exact .of_serves (Pool.reserveWarm?_serves hq) hleaver
  · exact .refl hleaver

/-- **Step theorem.**  What an event does to the queue. -/
theorem step_queueStep (h : r.Attended) (now : Nat) (e : PoolEvent κ) :
    QueueStep r e (r.step now e).1.pool := by
  cases e with
  | acquire caller baseUrl => exact acquire_queueStep r now caller baseUrl
  | opened caller result => exact opened_queueStep r now caller result
  | collect caller => exact collect_queueStep r now caller
  | expire caller => exact expire_queueStep h now caller
  | abandon caller => exact abandon_queueStep h now caller
  | release caller =>
      simp only [step, release]
      split
      · exact .refl rfl
      · rename_i l hl
        exact .of_serves (Pool.release_serves r.pool now l.id) rfl
  | flag caller =>
      simp only [step, flag]
      split
      · exact .refl rfl
      · exact .of_serves (.same rfl) rfl
  | sweep id =>
      simp only [step, sweep]
      split
      · exact .refl rfl
      · split
        · exact .refl rfl
        · rename_i q candidates hq
          exact .of_serves (Pool.beginSweep?_serves hq) rfl
  | warm id =>
      simp only [step]
      split
      · exact .refl rfl
      · exact fill_queueStep rfl id
  | probed id results =>
      simp only [step, probed]
      split
      · exact .of_serves (Pool.applyProbes_serves r.pool results) rfl
      · exact .refl rfl
  | refill id =>
      simp only [step, refill]
      split
      · exact fill_queueStep rfl id
      · exact .refl rfl
  | warmed id result =>
      simp only [step, warmed]
      split
      · rename_i connection hphase
        have hserved := Pool.commitIdle_serves r.pool now r.pool.config.defaultBaseUrl connection
        split
        · rename_i q hcommit
          rw [hcommit] at hserved
          exact .of_serves hserved rfl
        · rename_i q hcommit
          rw [hcommit] at hserved
          exact .of_serves hserved rfl
      · exact .of_serves (Pool.dropReservation_serves r.pool) rfl
      · exact .refl rfl
  | abandonSweep id =>
      simp only [step, abandonSweep]
      split
      · exact .of_serves (Pool.dropReservation_serves r.pool) rfl
      · exact .refl rfl
      · exact .refl rfl
  | shutdown => exact .of_serves (Pool.shutdown_serves r.pool) rfl

/-- Those served and those in the queue are together in the order in which they joined, and nobody is
missing but those who left. -/
structure InOrder (r : PoolRun κ) (log : QueueLog) : Prop where
  sorted : log.joined.Pairwise (· < ·)
  recent : ∀ t ∈ log.joined, t ≤ r.pool.lastId
  order : (log.served ++ r.queue).Sublist log.joined
  accounted : ∀ t ∈ log.joined, t ∈ log.served ∨ t ∈ log.left ∨ t ∈ r.queue
  gone : ∀ t ∈ log.left, t ∈ log.joined ∧ t ∉ log.served ∧ t ∉ r.queue
  handed : ∀ t ∈ r.serviced, t ∈ log.served

theorem filter_notMem_eq_nil {l m : List Nat} (h : ∀ x ∈ l, x ∈ m) : l.filter (· ∉ m) = [] :=
  List.filter_eq_nil_iff.mpr fun x hx => by simpa using h x hx

theorem filter_notMem_eq_self {l m : List Nat} (h : ∀ x ∈ l, x ∉ m) : l.filter (· ∉ m) = l :=
  List.filter_eq_self.mpr fun x hx => by simpa using h x hx

namespace InOrder

/-- A caller in the queue has neither been served nor left. -/
theorem notMem_served (h : r.InOrder log) (ht : ticket ∈ r.queue) : ticket ∉ log.served := by
  have hsorted := h.sorted.sublist h.order
  intro hserved
  exact Nat.lt_irrefl _ ((List.pairwise_append.mp hsorted).2.2 ticket hserved ticket ht)

theorem notMem_left (h : r.InOrder log) (ht : ticket ∈ r.queue) : ticket ∉ log.left :=
  fun hleft => (h.gone ticket hleft).2.2 ht

/-- Callers are served from the front of an open pool. -/
theorem serves (h : r.InOrder log) (hr : r.Attended) {inbox : List (Nat × Delivery κ)}
    (hinbox : inbox.Sublist r.pool.inbox) (hq : ({ r.pool with inbox } : Pool κ).Serves r'.pool)
    (hleaver : r.leaver? e = none) (hopen : r'.pool.closed = false) :
    r'.InOrder (r.record r' e log) := by
  obtain ⟨batch, hwaiters, hinbox', hsuits⟩ := hq.served
  let ids := batch.map (·.1.id)
  have hqueue : r.queue = ids ++ r'.queue := by
    have hmap := congrArg (List.map (·.id)) hwaiters
    simpa [queue, ids, Function.comp_def] using hmap
  have hbatch : ((batch.map fun d => (d.1.id, d.2)).filter (·.2.isService)).map (·.1) = ids := by
    have hall : (batch.map fun d => (d.1.id, d.2)).filter (·.2.isService) =
        batch.map fun d => (d.1.id, d.2) := by
      refine List.filter_eq_self.mpr fun x hx => ?_
      obtain ⟨d, hd, rfl⟩ := List.mem_map.mp hx
      have hsuit := hsuits d hd
      rw [hopen] at hsuit
      exact hsuit.isService
    rw [hall, List.map_map]
    rfl
  have hserviced : r'.serviced = (inbox.filter (·.2.isService)).map (·.1) ++ ids := by
    unfold serviced
    rw [hinbox', List.filter_append, List.map_append, hbatch]
  have hold : ∀ t ∈ (inbox.filter (·.2.isService)).map (·.1), t ∈ r.serviced :=
    fun t ht => ((hinbox.filter _).map _).subset ht
  have hnew : ∀ t ∈ ids, t ∉ r.serviced := by
    obtain ⟨-, -, hdisjoint⟩ := List.nodup_append.mp hr.distinct
    intro t ht hin
    have hqueued : t ∈ r.queue := hqueue ▸ List.mem_append_left _ ht
    have hhanded : t ∈ r.pool.inbox.map (·.1) := (List.filter_sublist.map _).subset hin
    exact hdisjoint t hqueued t hhanded rfl
  have hrecord : r.record r' e log = { log with served := log.served ++ ids } := by
    have hjoined : r'.queue.filter (· ∉ r.queue) = [] :=
      filter_notMem_eq_nil fun t ht => hqueue ▸ List.mem_append_right _ ht
    have hserved : r'.serviced.filter (· ∉ r.serviced) = ids := by
      rw [hserviced, List.filter_append, filter_notMem_eq_nil hold, filter_notMem_eq_self hnew]
      rfl
    simp only [record, hjoined, hserved, hleaver, Option.toList_none, List.append_nil]
  rw [hrecord]
  refine ⟨h.sorted, fun t ht => Nat.le_trans (h.recent t ht) hq.lastId, ?_, ?_, ?_, ?_⟩
  · rw [List.append_assoc, ← hqueue]
    exact h.order
  · intro t ht
    rcases h.accounted t ht with hserved | hleft | hwaits
    · exact .inl (List.mem_append_left _ hserved)
    · exact .inr (.inl hleft)
    · rcases List.mem_append.mp (hqueue ▸ hwaits) with hserved | hwaits
      · exact .inl (List.mem_append_right _ hserved)
      · exact .inr (.inr hwaits)
  · intro t ht
    obtain ⟨hjoined, hserved, hwaits⟩ := h.gone t ht
    rw [hqueue] at hwaits
    refine ⟨hjoined, fun hin => ?_, fun hin => hwaits (List.mem_append_right _ hin)⟩
    rcases List.mem_append.mp hin with hin | hin
    · exact hserved hin
    · exact hwaits (List.mem_append_left _ hin)
  · intro t ht
    rw [hserviced] at ht
    rcases List.mem_append.mp ht with ht | ht
    · exact List.mem_append_left _ (h.handed t (hold t ht))
    · exact List.mem_append_right _ ht

/-- A caller leaves the queue. -/
theorem leaves (h : r.InOrder log) {meters : PoolMeters} (hleaver : r.leaver? e = some ticket)
    (hq : r'.pool =
      { r.pool with waiters := r.pool.waiters.filter (·.id ≠ ticket), meters }) :
    r'.InOrder (r.record r' e log) := by
  have hqueue : r'.queue = r.queue.filter (· ≠ ticket) := by
    simp only [queue, hq, List.filter_map]
    rfl
  have hserviced : r'.serviced = r.serviced := by simp only [serviced, hq]
  have hlast : r'.pool.lastId = r.pool.lastId := by rw [hq]
  have hwaiting : ticket ∈ r.queue := by
    have hplace {caller : Nat} (hplace : r.place? caller = some ticket) : ticket ∈ r.queue := by
      simpa using (Option.filter_eq_some_iff.mp hplace).2
    cases e with
    | expire caller => exact hplace hleaver
    | abandon caller => exact hplace hleaver
    | _ => cases hleaver
  have hrecord : r.record r' e log = { log with left := log.left ++ [ticket] } := by
    have hjoined : r'.queue.filter (· ∉ r.queue) = [] := by
      rw [hqueue]
      exact filter_notMem_eq_nil fun t ht => (List.mem_filter.mp ht).1
    have hserved : r'.serviced.filter (· ∉ r.serviced) = [] := by
      rw [hserviced]
      exact filter_notMem_eq_nil fun t ht => ht
    simp only [record, hjoined, hserved, hleaver, Option.toList_some, List.append_nil]
  rw [hrecord]
  refine ⟨h.sorted, fun t ht => hlast ▸ h.recent t ht, ?_, ?_, ?_, ?_⟩
  · rw [hqueue]
    exact (List.filter_sublist.append_left _).trans h.order
  · intro t ht
    rcases h.accounted t ht with hserved | hleft | hwaits
    · exact .inl hserved
    · exact .inr (.inl (List.mem_append_left _ hleft))
    · by_cases heq : t = ticket
      · exact .inr (.inl (heq ▸ List.mem_append_right _ List.mem_cons_self))
      · exact .inr (.inr (hqueue ▸ List.mem_filter.mpr ⟨hwaits, by simpa using heq⟩))
  · intro t ht
    rw [hqueue]
    rcases List.mem_append.mp ht with ht | ht
    · obtain ⟨hjoined, hserved, hwaits⟩ := h.gone t ht
      exact ⟨hjoined, hserved, fun hin => hwaits (List.mem_filter.mp hin).1⟩
    · obtain rfl := List.mem_singleton.mp ht
      have hjoined : t ∈ log.joined := h.order.subset (List.mem_append_right _ hwaiting)
      exact ⟨hjoined, h.notMem_served hwaiting, by simp⟩
  · rw [hserviced]
    exact h.handed

/-- A caller joins the queue. -/
theorem joins (h : r.InOrder log) (hr : r.Attended) {url : String} (hleaver : r.leaver? e = none)
    (hq : (r'.pool.lastId, r'.pool.waiters, r'.pool.inbox, r'.pool.closed) =
      (r.pool.lastId + 1, r.pool.waiters ++ [(⟨r.pool.lastId + 1, url⟩ : Waiter)], r.pool.inbox,
        r.pool.closed)) : r'.InOrder (r.record r' e log) := by
  simp only [Prod.mk.injEq] at hq
  obtain ⟨hlast, hwaiters, hinbox, -⟩ := hq
  have hqueue : r'.queue = r.queue ++ [r.pool.lastId + 1] := by simp [queue, hwaiters]
  have hserviced : r'.serviced = r.serviced := by simp only [serviced, hinbox]
  have hnew : r.pool.lastId + 1 ∉ r.queue := fun hin =>
    absurd (hr.recent _ (List.mem_append_left _ hin)) (Nat.not_succ_le_self _)
  have hlate : ∀ t ∈ log.joined, t < r.pool.lastId + 1 := fun t ht =>
    Nat.lt_succ_of_le (h.recent t ht)
  have hrecord : r.record r' e log =
      { log with joined := log.joined ++ [r.pool.lastId + 1] } := by
    have hjoined : r'.queue.filter (· ∉ r.queue) = [r.pool.lastId + 1] := by
      rw [hqueue, List.filter_append, filter_notMem_eq_nil fun t ht => ht,
        filter_notMem_eq_self fun t ht => List.mem_singleton.mp ht ▸ hnew]
      rfl
    have hserved : r'.serviced.filter (· ∉ r.serviced) = [] := by
      rw [hserviced]
      exact filter_notMem_eq_nil fun t ht => ht
    simp only [record, hjoined, hserved, hleaver, Option.toList_none, List.append_nil]
  rw [hrecord]
  refine ⟨?_, ?_, ?_, ?_, ?_, ?_⟩
  · refine List.pairwise_append.mpr ⟨h.sorted, List.pairwise_singleton _ _, fun t ht u hu => ?_⟩
    rw [List.mem_singleton.mp hu]
    exact hlate t ht
  · intro t ht
    rw [hlast]
    rcases List.mem_append.mp ht with ht | ht
    · exact Nat.le_of_lt (hlate t ht)
    · exact Nat.le_of_eq (List.mem_singleton.mp ht)
  · rw [hqueue, ← List.append_assoc]
    exact h.order.append_right _
  · intro t ht
    rw [hqueue]
    rcases List.mem_append.mp ht with ht | ht
    · rcases h.accounted t ht with hserved | hleft | hwaits
      · exact .inl hserved
      · exact .inr (.inl hleft)
      · exact .inr (.inr (List.mem_append_left _ hwaits))
    · exact .inr (.inr (List.mem_append_right _ ht))
  · intro t ht
    obtain ⟨hjoined, hserved, hwaits⟩ := h.gone t ht
    refine ⟨List.mem_append_left _ hjoined, hserved, fun hin => ?_⟩
    rcases List.mem_append.mp (hqueue ▸ hin) with hin | hin
    · exact hwaits hin
    · exact Nat.lt_irrefl _ (List.mem_singleton.mp hin ▸ hlate t hjoined)
  · rw [hserviced]
    exact h.handed

end InOrder

/-- **Step theorem.**  While the pool is open an event keeps the order of the queue. -/
theorem step_inOrder (h : r.Sound) (hlog : r.InOrder log) (now : Nat) (e : PoolEvent κ)
    (hopen : (r.step now e).1.pool.closed = false) :
    (r.step now e).1.InOrder (r.record (r.step now e).1 e log) := by
  cases step_queueStep h.toAttended now e with
  | serves inbox hinbox hq hleaver =>
      exact hlog.serves h.toAttended hinbox hq hleaver hopen
  | leaves ticket meters hleaver hq => exact hlog.leaves hleaver hq
  | joins url hleaver hq => exact hlog.joins h.toAttended hleaver hq

/-- **Run theorem.**  In a pool that is still open the order of the queue was kept. -/
theorem run_inOrder (h : r.Sound) (hlog : r.pool.closed = false → r.InOrder log)
    (events : List (Nat × PoolEvent κ)) (hopen : (r.run events).pool.closed = false) :
    (r.run events).InOrder (r.history log events) := by
  induction events generalizing r log with
  | nil => exact hlog hopen
  | cons e rest ih =>
      refine ih (step_sound h e.1 e.2) (fun hopen' => ?_) hopen
      have hbefore := (step_queueStep h.toAttended e.1 e.2).closed hopen'
      exact step_inOrder h (hlog hbefore) e.1 e.2 hopen'

/-- Nobody has joined the queue of a new pool. -/
theorem inOrder_new {config : PoolConfig} {p : Pool κ} (hp : Pool.new config = .ok p) :
    ({ pool := p } : PoolRun κ).InOrder {} := by
  unfold Pool.new at hp
  split at hp
  · cases hp
  · cases hp
    exact ⟨.nil, by simp, .slnil, by simp, by simp, by simp [serviced]⟩

theorem history_append (r : PoolRun κ) (log : QueueLog) (events later : List (Nat × PoolEvent κ)) :
    r.history log (events ++ later) = (r.run events).history (r.history log events) later := by
  induction events generalizing r log with
  | nil => rfl
  | cons e rest ih => exact ih _ _

/-- What has been noted of those who joined stays so. -/
theorem joined_history (r : PoolRun κ) (log : QueueLog) (events : List (Nat × PoolEvent κ)) :
    log.joined.Sublist (r.history log events).joined := by
  induction events generalizing r log with
  | nil => exact .refl _
  | cons e rest ih =>
      have hfirst : log.joined.Sublist (r.record (r.step e.1 e.2).1 e.2 log).joined :=
        List.sublist_append_left _ _
      exact hfirst.trans (ih _ _)

/-- In a list in order the smaller of two elements comes first. -/
theorem pair_sublist {l : List Nat} (hl : l.Pairwise (· < ·)) {t u : Nat} (ht : t ∈ l) (hu : u ∈ l)
    (hlt : t < u) : [t, u].Sublist l := by
  obtain ⟨pre, post, rfl⟩ := List.append_of_mem ht
  obtain ⟨-, -, hpre⟩ := List.pairwise_append.mp hl
  have hpost : u ∈ post := by
    rcases List.mem_append.mp hu with hu | hu
    · exact absurd (hpre u hu t List.mem_cons_self) (Nat.lt_asymm hlt)
    · rcases List.mem_cons.mp hu with rfl | hu
      · exact absurd hlt (Nat.lt_irrefl _)
      · exact hu
  have hpair : [t, u].Sublist (t :: post) := (List.singleton_sublist.mpr hpost).cons_cons t
  exact hpair.trans (List.sublist_append_right _ _)

namespace InOrder

/-- Who joined before somebody that was served was served before, or has left. -/
theorem served_before (h : r.InOrder log) {t u : Nat} (hjoined : [t, u].Sublist log.joined)
    (hu : u ∈ log.served) : [t, u].Sublist log.served ∨ t ∈ log.left := by
  have hlt : t < u := List.pairwise_iff_forall_sublist.mp h.sorted hjoined
  have hsorted := h.sorted.sublist h.order
  obtain ⟨hserved, -, hwaits⟩ := List.pairwise_append.mp hsorted
  rcases h.accounted t (hjoined.subset List.mem_cons_self) with ht | ht | ht
  · exact .inl (pair_sublist hserved ht hu hlt)
  · exact .inr ht
  · exact absurd (hwaits u hu t ht) (Nat.lt_asymm hlt)

/-- The queue is made of those who joined and were neither served nor left. -/
theorem mem_queue (h : r.InOrder log) (t : Nat) :
    t ∈ r.queue ↔ t ∈ log.joined ∧ t ∉ log.served ∧ t ∉ log.left := by
  constructor
  · intro ht
    exact ⟨h.order.subset (List.mem_append_right _ ht), h.notMem_served ht, h.notMem_left ht⟩
  · rintro ⟨hjoined, hserved, hleft⟩
    rcases h.accounted t hjoined with ht | ht | ht
    · exact absurd ht hserved
    · exact absurd ht hleft
    · exact ht

end InOrder

/-- Who is in the queue gets a connection, or may open one, only when it was handed that. -/
theorem mem_serviced (hfound : r.acquisition? caller = some a) (hphase : a.phase = .queued ticket)
    (he : e.caller? = some caller) (hout : (r.step now e).2.isService = true) :
    ticket ∈ r.serviced := by
  have hcollect (o : PoolRun κ × PoolOutcome κ) (ho : r.collectFor now a ticket = some o)
      (hout : o.2.isService = true) : ticket ∈ r.serviced := by
    obtain ⟨d, hd, rfl⟩ := exists_of_collectFor ho
    have hmem := Keyed.mem_of_lookup hd
    have hservice : d.isService = true := by
      cases d with
      | connection l => rfl
      | room => rfl
      | closed => cases hout
    exact List.mem_map_of_mem (List.mem_filter.mpr ⟨hmem, hservice⟩)
  cases e with
  | acquire caller baseUrl =>
      cases he
      have hbusy : r.isBusy caller = true := by simp [isBusy, hfound]
      simp only [step, acquire, hbusy, if_true] at hout
      cases hout
  | opened caller result =>
      cases he
      simp only [step, opened, hfound, hphase] at hout
      cases hout
  | collect caller =>
      cases he
      simp only [step, collect, hfound, hphase] at hout
      cases ho : r.collectFor now a ticket with
      | none =>
          rw [ho] at hout
          cases hout
      | some o =>
          rw [ho] at hout
          exact hcollect o ho hout
  | expire caller =>
      cases he
      simp only [step, expire, hfound, hphase] at hout
      cases ho : r.collectFor now a ticket with
      | none =>
          rw [ho] at hout
          cases hout
      | some o =>
          rw [ho] at hout
          exact hcollect o ho hout
  | abandon caller => cases hout
  | release caller => cases hout
  | flag caller => cases hout
  | _ => cases he

/-- Who asks for a connection while there is a queue joins it at its end. -/
theorem acquire_of_queue (h : r.Sound) (hqueue : r.queue ≠ []) (hfree : r.isBusy caller = false)
    (now : Nat) (baseUrl : Option String) :
    (r.acquire now caller baseUrl).2 = .queued ∧
      (r.acquire now caller baseUrl).1.queue = r.queue ++ [r.pool.lastId + 1] ∧
      ∃ a, (r.acquire now caller baseUrl).1.acquisition? caller = some a ∧
        a.phase = .queued (r.pool.lastId + 1) := by
  have hwaiters : r.pool.waiters ≠ [] := fun hnone => hqueue (by simp [queue, hnone])
  have hopen : r.pool.closed = false :=
    Bool.eq_false_iff.mpr fun hc => hwaiters (h.settled.emptied hc).2
  generalize hurl : baseUrl.getD r.pool.config.defaultBaseUrl = url
  -- no connection is idle while there is a queue
  have hidle : r.pool.slots.find? (fun s => !s.inUse && s.healthy && s.baseUrl == url) = none := by
    refine List.find?_eq_none.mpr fun s hs => ?_
    simp [h.settled.busy hwaiters s hs]
  have hjoin : r.acquire now caller baseUrl =
      ({ r with pool := { r.pool with totalRequests := r.pool.totalRequests + 1 } } :
        PoolRun κ).joinQueue now caller url := by
    simp [acquire, hfree, hopen, hurl, Pool.idleFor?, hidle, hwaiters]
  rw [hjoin]
  refine ⟨rfl, by simp [joinQueue, await, endAcquisition, queue], ⟨caller, url, now, .queued (r.pool.lastId + 1)⟩,
    ?_, rfl⟩
  have hothers : (r.acquisitions.filter (·.caller ≠ caller)).find? (·.caller == caller) = none := by
    refine List.find?_eq_none.mpr fun a ha => ?_
    simpa using (List.mem_filter.mp ha).2
  simp only [joinQueue, await, acquisition?, List.find?_append, hothers]
  simp

/-- **Order of service.**  While the pool is open:

* whenever somebody was served, all who joined the queue before were served before or have left, and
  those who have left were not served;
* the queue is made of those who joined and were neither served nor left;
* who joined the queue gets a connection, or may open one, only when it was served;
* who asks for a connection while there is a queue joins it at its end, and when it is served later
  those it found there were served before or have left. -/
theorem run_serves_in_order (config : PoolConfig) (hmax : 1 ≤ config.maxSize)
    (hmin : config.minSize ≤ config.maxSize) :
    ∃ p : Pool κ, Pool.new config = .ok p ∧ ∀ events : List (Nat × PoolEvent κ),
      let r := ({ pool := p } : PoolRun κ).run events
      let log := ({ pool := p } : PoolRun κ).history {} events
      r.pool.closed = false →
        (∀ t u, [t, u].Sublist log.joined → u ∈ log.served →
          [t, u].Sublist log.served ∨ t ∈ log.left) ∧
        (∀ t ∈ log.left, t ∉ log.served) ∧
        (∀ t, t ∈ r.queue ↔ t ∈ log.joined ∧ t ∉ log.served ∧ t ∉ log.left) ∧
        (∀ now e caller a t, r.acquisition? caller = some a → a.phase = .queued t →
          e.caller? = some caller → (r.step now e).2.isService = true → t ∈ log.served) ∧
        ∀ now caller baseUrl, r.queue ≠ [] → r.isBusy caller = false →
          let e := (now, PoolEvent.acquire caller baseUrl)
          (r.step now e.2).2 = .queued ∧ ∃ u a, u ∉ log.joined ∧
            (r.step now e.2).1.acquisition? caller = some a ∧ a.phase = .queued u ∧
            (r.step now e.2).1.queue = r.queue ++ [u] ∧
            ∀ later : List (Nat × PoolEvent κ),
              let log' := ({ pool := p } : PoolRun κ).history {} (events ++ e :: later)
              (({ pool := p } : PoolRun κ).run (events ++ e :: later)).pool.closed = false →
                u ∈ log'.served → ∀ t ∈ r.queue, [t, u].Sublist log'.served ∨ t ∈ log'.left := by
  obtain ⟨p, hp, hrun⟩ := exists_run (κ := κ) config hmax hmin
  refine ⟨p, hp, fun events => ?_⟩
  intro r log hopen
  have hsound : r.Sound := (hrun events).1
  have hordered (events : List (Nat × PoolEvent κ))
      (hopen : (({ pool := p } : PoolRun κ).run events).pool.closed = false) :
      (({ pool := p } : PoolRun κ).run events).InOrder
        (({ pool := p } : PoolRun κ).history {} events) :=
    run_inOrder (sound_new hp) (fun _ => inOrder_new hp) events hopen
  have hlog : r.InOrder log := hordered events hopen
  refine ⟨fun t u hjoined hu => hlog.served_before hjoined hu, fun t ht => (hlog.gone t ht).2.1,
    hlog.mem_queue, ?_, ?_⟩
  · intro now e caller a t hfound hphase he hout
    exact hlog.handed t (mem_serviced hfound hphase he hout)
  · intro now caller baseUrl hqueue hfree e
    obtain ⟨hout, hend, a, ha, hphase⟩ := acquire_of_queue hsound hqueue hfree now baseUrl
    have hend : (r.step now e.2).1.queue = r.queue ++ [r.pool.lastId + 1] := hend
    have hnew : r.pool.lastId + 1 ∉ log.joined := fun hin =>
      absurd (hlog.recent _ hin) (Nat.not_succ_le_self _)
    refine ⟨hout, _, a, hnew, ha, hphase, hend, ?_⟩
    intro later log' hopen' hu t ht
    refine (hordered _ hopen').served_before ?_ hu
    -- the caller joined behind those it found, and the log has only grown since then
    have hbehind : [t, r.pool.lastId + 1].Sublist
        (r.record (r.step now e.2).1 e.2 log).joined := by
      have hfound : t ∈ log.joined := ((hlog.mem_queue t).mp ht).1
      have hjoins : r.pool.lastId + 1 ∈ (r.step now e.2).1.queue.filter (· ∉ r.queue) := by
        have hout : r.pool.lastId + 1 ∉ r.queue := fun hin => hnew ((hlog.mem_queue _).mp hin).1
        refine List.mem_filter.mpr ⟨?_, by simpa using hout⟩
        rw [hend]
        exact List.mem_append_right _ List.mem_cons_self
      exact (List.singleton_sublist.mpr hfound).append (List.singleton_sublist.mpr hjoins)
    have hgrown := joined_history (r.step now e.2).1 (r.record (r.step now e.2).1 e.2 log) later
    rw [history_append]
    exact hbehind.trans hgrown

/-- Of two callers in the queue for different addresses, the one that came first is served first,
after it has gone away the other. -/
theorem run_serves_in_order_two :
    ∃ p : Pool Unit, Pool.new { maxSize := 1, minSize := 0 } = .ok p ∧
      let events : List (Nat × PoolEvent Unit) :=
        [(0, .acquire 1 (some "a")), (0, .acquire 2 (some "b")), (0, .acquire 3 (some "a")),
          (0, .abandon 1), (1, .collect 2), (2, .abandon 2)]
      let log := ({ pool := p } : PoolRun Unit).history {} events
      (({ pool := p } : PoolRun Unit).run events).pool.closed = false ∧
        [1, 2].Sublist log.joined ∧ 2 ∈ log.served ∧ log.left = [] ∧
        [1, 2].Sublist log.served := by
  obtain ⟨p, hp, hrun⟩ := run_serves_in_order (κ := Unit) { maxSize := 1, minSize := 0 }
    (by decide) (by decide)
  have hordered := hrun
    [(0, .acquire 1 (some "a")), (0, .acquire 2 (some "b")), (0, .acquire 3 (some "a")),
      (0, .abandon 1), (1, .collect 2), (2, .abandon 2)]
  cases hp
  have hserved := (hordered rfl).1 1 2 (by decide) (by decide)
  refine ⟨_, rfl, rfl, by decide, by decide, rfl, ?_⟩
  exact hserved.resolve_right (by decide)

end PoolRun

end InferenceRouting
