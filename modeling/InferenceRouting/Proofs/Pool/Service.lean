import InferenceRouting.Pool.Basic

/-!
# Serving the queue

Whatever happens to a pool, callers leave its queue for what was handed over to them from the front
only, in order, and with something that suits them: a connection only if it leads to the address the
caller wants (`Serves`).  Giving room away is the plain case: `grantRoom_eq` says how many callers
get it.  Every operation of a pool that is not about one caller serves the queue in this sense.
-/

namespace InferenceRouting.Pool

variable {κ : Type}

/-- What is handed over suits a caller: a connection leads to the address the caller wants, and the
notice of a shutdown comes from a pool that is closed. -/
def Suits (closed : Bool) (w : Waiter) : Delivery κ → Prop
  | .connection l => l.baseUrl = w.baseUrl
  | .room => True
  | .closed => closed = true

/-- What suits a caller does so after a shutdown. -/
theorem Suits.mono {closed closed' : Bool} (hclosed : closed = true → closed' = true) {w : Waiter}
    {d : Delivery κ} (h : Suits closed w d) : Suits closed' w d := by
  cases d with
  | connection l => exact h
  | room => trivial
  | closed => exact hclosed h

/-- One pool comes from another by serving callers from the front of the queue, each with something
that suits it. -/
structure Serves (p q : Pool κ) : Prop where
  config : q.config = p.config
  lastId : p.lastId ≤ q.lastId
  closed : p.closed = true → q.closed = true
  served : ∃ batch : List (Waiter × Delivery κ),
    p.waiters = batch.map Prod.fst ++ q.waiters ∧
    q.inbox = p.inbox ++ batch.map (fun d => (d.1.id, d.2)) ∧
    ∀ d ∈ batch, Suits q.closed d.1 d.2

namespace Serves

variable {p q r : Pool κ}

/-- A pool whose queue and handoffs are the same serves nobody. -/
theorem of_eq (hconfig : q.config = p.config) (hlast : p.lastId ≤ q.lastId)
    (hclosed : p.closed = true → q.closed = true) (hwaiters : q.waiters = p.waiters)
    (hinbox : q.inbox = p.inbox) : p.Serves q :=
  ⟨hconfig, hlast, hclosed, [], by simp [hwaiters], by simp [hinbox], by simp⟩

/-- A pool that differs in its slots, its reservations and its counts alone serves nobody. -/
theorem same (h : (q.config, q.lastId, q.closed, q.waiters, q.inbox) =
    (p.config, p.lastId, p.closed, p.waiters, p.inbox)) : p.Serves q := by
  simp only [Prod.mk.injEq] at h
  obtain ⟨hconfig, hlast, hclosed, hwaiters, hinbox⟩ := h
  exact of_eq hconfig (Nat.le_of_eq hlast.symm) (fun hc => hclosed.trans hc) hwaiters hinbox

/-- A pool serves nobody by staying as it is. -/
theorem refl (p : Pool κ) : p.Serves p :=
  same rfl

/-- Serving goes on where it has stopped. -/
theorem trans (h : p.Serves q) (h' : q.Serves r) : p.Serves r := by
  obtain ⟨batch, hwaiters, hinbox, hsuits⟩ := h.served
  obtain ⟨batch', hwaiters', hinbox', hsuits'⟩ := h'.served
  refine ⟨h'.config.trans h.config, Nat.le_trans h.lastId h'.lastId,
    fun hc => h'.closed (h.closed hc), batch ++ batch', ?_, ?_, ?_⟩
  · rw [hwaiters, hwaiters', List.map_append, List.append_assoc]
  · rw [hinbox', hinbox, List.map_append, List.append_assoc]
  · intro d hd
    rcases List.mem_append.mp hd with hd | hd
    · exact (hsuits d hd).mono h'.closed
    · exact hsuits' d hd

/-- The first in the queue is served with something that suits it. -/
theorem deliver {p : Pool κ} {w : Waiter} {rest : List Waiter} (hw : p.waiters = w :: rest)
    {d : Delivery κ} {q : Pool κ} (hd : Suits q.closed w d) (hconfig : q.config = p.config)
    (hlast : p.lastId ≤ q.lastId) (hclosed : p.closed = true → q.closed = true)
    (hwaiters : q.waiters = rest) (hinbox : q.inbox = p.inbox ++ [(w.id, d)]) : p.Serves q := by
  refine ⟨hconfig, hlast, hclosed, [(w, d)], ?_, hinbox, ?_⟩
  · simp [hw, hwaiters]
  · intro e he
    have : e = (w, d) := by simpa using he
    simpa [this] using hd

end Serves

variable (p : Pool κ)

/-- The number of callers in the queue for which there is room. -/
def grants : Nat :=
  min p.waiters.length (p.config.maxSize - p.size)

/-- The pool after giving room to `n` callers from the front of the queue. -/
def grantTo (n : Nat) : Pool κ :=
  { p with
    waiters := p.waiters.drop n
    pending := p.pending + n
    inbox := p.inbox ++ (p.waiters.take n).map fun w => (w.id, Delivery.room) }

/-- Giving room to callers one by one gives it to as many as there is room for. -/
theorem grantRoom_go_eq (ws : List Waiter) (hp : p.waiters = ws) :
    grantRoom.go p ws = p.grantTo p.grants := by
  induction ws generalizing p with
  | nil =>
      have hzero : p.grants = 0 := by simp [grants, hp]
      simp [grantRoom.go, hzero, grantTo]
  | cons w rest ih =>
      by_cases hroom : p.size < p.config.maxSize
      · let q := { p with waiters := rest, pending := p.pending + 1 }.deliver w .room
        have hgo : grantRoom.go p (w :: rest) = grantRoom.go q rest := by
          simp only [grantRoom.go, hroom, if_true, q]
        have hsize : q.size = p.size + 1 := by
          simp only [size, q, Pool.deliver]
          omega
        have hq : q.config = p.config ∧ q.waiters = rest := ⟨rfl, rfl⟩
        have hgrants : p.grants = q.grants + 1 := by
          simp only [grants, hp, hq, hsize, List.length_cons]
          omega
        rw [hgo, ih q rfl, hgrants]
        simp only [grantTo, hp, q, Pool.deliver, List.drop_succ_cons, List.take_succ_cons,
          List.map_cons, List.append_assoc, List.cons_append, List.nil_append]
        congr 1
        omega
      · have hzero : p.grants = 0 := by
          simp only [grants]
          omega
        simp [grantRoom.go, hroom, hzero, grantTo]

/-- **Giving room away.**  As many callers as there is room for get it, from the front. -/
theorem grantRoom_eq : p.grantRoom = p.grantTo p.grants :=
  grantRoom_go_eq p p.waiters rfl

theorem grantTo_serves (n : Nat) : p.Serves (p.grantTo n) := by
  refine ⟨rfl, Nat.le_refl _, id, (p.waiters.take n).map fun w => (w, Delivery.room), ?_, ?_, ?_⟩
  · simp [grantTo, Function.comp_def]
  · simp [grantTo, Function.comp_def]
  · intro d hd
    obtain ⟨w, -, rfl⟩ := List.mem_map.mp hd
    trivial

theorem grantRoom_serves : p.Serves p.grantRoom := by
  rw [grantRoom_eq]
  exact grantTo_serves p _

theorem publish_serves : p.Serves p.publish :=
  Serves.same rfl

theorem offer_serves (now id : Nat) : p.Serves (p.offer now id) := by
  unfold offer
  split
  · exact Serves.refl p
  · rename_i s hs
    split
    · rename_i hwaiters
      exact Serves.same rfl
    · rename_i w rest hw
      dsimp only
      split
      · rename_i hurl
        exact Serves.deliver hw (d := .connection (lease s)) hurl.symm rfl (Nat.le_refl _)
          (fun h => h) rfl rfl
      · have hroom : p.Serves
            ({ evict { p with waiters := rest } id .handoff with pending := p.pending + 1 }.deliver
              w .room) :=
          Serves.deliver hw (d := .room) trivial rfl (Nat.le_refl _) (fun h => h) rfl rfl
        exact hroom.trans (grantRoom_serves _)

theorem release_serves (now id : Nat) : p.Serves (p.release now id) := by
  unfold release
  split
  · exact Serves.refl p
  · rename_i s hs
    have htouch : p.Serves (p.setSlot id fun s => { s with lastUsedAt := now }) := Serves.same rfl
    dsimp only
    split
    · have hevict : p.Serves ((p.setSlot id fun s => { s with lastUsedAt := now }).evict id
          .unhealthy) := Serves.same rfl
      exact (hevict.trans (grantRoom_serves _)).trans (publish_serves _)
    · exact (htouch.trans (offer_serves _ now id)).trans (publish_serves _)

theorem dropReservation_serves : p.Serves p.dropReservation := by
  have hback : p.Serves { p with pending := p.pending - 1 } := Serves.same rfl
  exact hback.trans (grantRoom_serves _)

theorem reclaim_serves (now : Nat) (d : Delivery κ) : p.Serves (p.reclaim now d) := by
  cases d with
  | connection l => exact release_serves p now l.id
  | room => exact dropReservation_serves p
  | closed => exact Serves.refl p

/-- Retiring idle connections serves nobody. -/
theorem retire_serves (now : Nat) (idle : List (PoolSlot κ)) :
    p.Serves (retire now p idle).1 := by
  induction idle generalizing p with
  | nil => exact Serves.refl p
  | cons s rest ih =>
      simp only [retire]
      split
      · have hevict : p.Serves (p.evict s.id .idle) := Serves.same rfl
        exact hevict.trans (ih _)
      · exact ih p

theorem applyProbe_serves (id : Nat) (alive : Bool) : p.Serves (p.applyProbe id alive) := by
  unfold applyProbe
  split
  · exact Serves.refl p
  · split
    · split
      · exact Serves.refl p
      · exact Serves.same rfl
    · split
      · exact Serves.same rfl
      · exact Serves.same rfl

theorem applyProbes_serves (results : List (Nat × Bool)) : p.Serves (p.applyProbes results) := by
  have hfold : p.Serves (results.foldl (fun p r => p.applyProbe r.1 r.2) p) := by
    induction results generalizing p with
    | nil => exact Serves.refl p
    | cons r rest ih => exact (applyProbe_serves p r.1 r.2).trans (ih _)
  exact (hfold.trans (grantRoom_serves _)).trans (publish_serves _)

theorem beginSweep?_serves {p q : Pool κ} {now : Nat} {candidates : List (Lease κ)}
    (h : p.beginSweep? now = some (q, candidates)) : p.Serves q := by
  unfold beginSweep? at h
  split at h
  · cases h
  · cases h
    exact (retire_serves p now p.idleByAge).trans (grantRoom_serves _)

/-- A reservation for a sweep serves nobody. -/
theorem reserveWarm?_serves {p q : Pool κ} (h : p.reserveWarm? = some q) : p.Serves q := by
  unfold reserveWarm? at h
  split at h
  · cases h
  · cases h
    exact Serves.same rfl

/-- Putting an opened connection in for its caller serves nobody. -/
theorem commitLeased_serves (now : Nat) (url : String) (connection : κ) :
    p.Serves (p.commitLeased now url connection).1 := by
  unfold commitLeased
  dsimp only
  split
  · exact Serves.same rfl
  · exact Serves.of_eq rfl (Nat.le_succ _) (fun h => h) rfl rfl

/-- Putting an opened connection in serves the queue. -/
theorem commitIdle_serves (now : Nat) (url : String) (connection : κ) :
    p.Serves (p.commitIdle now url connection).1 := by
  unfold commitIdle
  dsimp only
  split
  · exact Serves.same rfl
  · let q : Pool κ := { p with
      pending := p.pending - 1
      meters := { p.meters with created := p.meters.created + 1 } }.insert now url connection false
    have hinsert : p.Serves q := Serves.of_eq rfl (Nat.le_succ _) (fun h => h) rfl rfl
    exact (hinsert.trans (offer_serves q now q.lastId)).trans (publish_serves _)

/-- A shutdown serves the whole queue with the notice of it. -/
theorem shutdown_serves : p.Serves p.shutdown := by
  refine ⟨rfl, Nat.le_refl _, fun _ => rfl, p.waiters.map fun w => (w, Delivery.closed), ?_, ?_, ?_⟩
  · simp [shutdown, publish, Function.comp_def]
  · simp [shutdown, publish, Function.comp_def]
  · intro d hd
    obtain ⟨w, -, rfl⟩ := List.mem_map.mp hd
    rfl

end InferenceRouting.Pool
