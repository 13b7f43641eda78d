import InferenceRouting.Proofs.Fleet.Connections
import InferenceRouting.Proofs.Fleet.Results

/-!
# Connections in a session

Whatever is done in a session, the connections in the pool of its fleet lead to the addresses under
which they are filed.  Connections are opened in two places.  A request opens one where the pool
tells it to (`Fleet.Keeps.step`), and so does a sweep, which is told the address of the pool itself
(`PoolRun.default_of_fill`, `genuine_warmed`).  All else that a session does either leaves its fleet
as it is or changes what has no part in this (`Fleet.Keeps.same`).

`run_connected` puts these together: every session that was begun keeps its fleet connected, however
its tasks take turns.
-/

namespace InferenceRouting

open Http (Call Endpoint HttpConfig Response Script TargetReader)

/-! ## Sweeps -/

/-- A sweep that is to open a connection is told the address of the pool. -/
theorem PoolRun.default_of_fill {κ : Type} {r : PoolRun κ} {now : Nat} {e : PoolEvent κ}
    {url : String} (hcaller : e.caller? = none) (h : (r.step now e).2 = .fill url) :
    url = (r.step now e).1.pool.config.defaultBaseUrl := by
  have hfill (id : Nat) (h : (r.fill id).2 = .fill url) :
      url = (r.fill id).1.pool.config.defaultBaseUrl := by
    unfold fill at h ⊢
    split at h
    · cases h
      rfl
    · cases h
  cases e with
  | sweep id =>
      simp only [step, sweep] at h
      split at h
      · cases h
      · split at h <;> cases h
  | warm id =>
      simp only [step] at h ⊢
      split at h
      · cases h
      · rw [if_neg ‹_›]
        exact hfill id h
  | probed id results =>
      simp only [step, probed] at h
      split at h <;> cases h
  | refill id =>
      simp only [step, refill] at h ⊢
      split at h
      · exact hfill id h
      · cases h
  | warmed id result =>
      simp only [step, warmed] at h
      split at h
      · split at h <;> cases h
      · cases h
      · cases h
  | abandonSweep id => cases h
  | shutdown => cases h
  | _ => cases hcaller

/-- What is opened for a sweep at the address of the pool leads there. -/
theorem genuine_warmed (f : Fleet) (id : Nat) :
    Genuine f.http (f.pool.brought
      (.warmed id (Endpoint.connect f.http f.pool.pool.config.defaultBaseUrl))) := by
  intro link hlink
  cases hconnect : Endpoint.connect f.http f.pool.pool.config.defaultBaseUrl with
  | error e => simp [PoolRun.brought, hconnect] at hlink
  | ok connection =>
      simp only [PoolRun.brought, hconnect, List.mem_singleton] at hlink
      rw [hlink]
      exact hconnect

namespace FleetSession

variable {s : FleetSession} {t : FleetTask} {e : PoolEvent Endpoint}

/-! ## What leaves the fleet as it is -/

theorem fleet_wake (s : FleetSession) (id : Nat) : (s.wake id).fleet = s.fleet :=
  (s.wake_fields id).1

/-- A fleet is put in, and waking changes nothing of it. -/
theorem fleet_setFleet (s : FleetSession) (f : Fleet) : (s.setFleet f).fleet = f := by
  unfold setFleet
  refine List.foldlRecOn (motive := fun u : FleetSession => u.fleet = f) _ _ rfl ?_
  intro u hu d _
  split
  · exact (fleet_wake u _).trans hu
  · exact hu

theorem fleet_collectFanOuts (s : FleetSession) : s.collectFanOuts.fleet = s.fleet := by
  rw [collectFanOuts_eq]

theorem fleet_finish (s : FleetSession) (t : FleetTask)
    (result : Except RoutingError InferenceAnswer) : (s.finish t result).fleet = s.fleet := by
  unfold finish
  dsimp only
  split
  · exact fleet_collectFanOuts _
  · rfl

theorem fleet_send (s : FleetSession) (task : Nat) (call : Call)
    (probed : Option (Lease Endpoint)) : (s.send task call probed).fleet = s.fleet := by
  unfold send
  dsimp only
  split <;> rfl

/-- Probes are sent to connections of the pool, and open none. -/
theorem fleet_sendProbes (s : FleetSession) (task : Nat) (candidates : List (Lease Endpoint)) :
    (s.sendProbes task candidates).1.fleet = s.fleet := by
  unfold sendProbes
  refine List.foldlRecOn
    (motive := fun u : FleetSession × List (Nat × Bool) => u.1.fleet = s.fleet) _ _ rfl ?_
  rintro ⟨u, failed⟩ hu lease -
  dsimp only
  split
  · exact (fleet_send u task _ _).trans hu
  · exact hu

theorem fleet_spawn (s : FleetSession) (label : String) (work : FleetWork) :
    (s.spawn label work).fleet = s.fleet :=
  fleet_wake _ _

theorem fleet_cancel (s : FleetSession) (label : String) : (s.cancel label).1.fleet = s.fleet := by
  unfold cancel
  refine List.foldlRecOn (motive := fun u : FleetSession => u.fleet = s.fleet) _ _ rfl ?_
  intro u hu id _
  exact (fleet_wake u id).trans hu

theorem fleet_letGo (s : FleetSession) (name : String) (answer : Bool) :
    (s.letGo name answer).1.fleet = s.fleet := by
  unfold letGo
  split <;> rfl

/-- Answers reach tasks, and not the fleet. -/
theorem fleet_resolve (s : FleetSession) (id : Nat) (outcome : Except RoutingError Response) :
    (s.resolve id outcome).fleet = s.fleet := by
  unfold resolve
  split
  · rfl
  · dsimp only
    split
    · rfl
    · exact fleet_wake _ _
    · rw [apply_ite FleetSession.fleet, fleet_wake, ite_self]
      rfl

/-! ## Tasks -/

/-- An event of the pool, told to the session. -/
theorem keeps_onPool (hbrought : Genuine s.fleet.http (s.fleet.pool.brought e)) :
    s.fleet.Keeps (s.onPool e).1.fleet := by
  have hfleet : (s.onPool e).1.fleet = (s.fleet.onPool s.now e).1 := fleet_setFleet s _
  rw [hfleet]
  exact .onPool hbrought s.now

/-- A request that goes on. -/
theorem keeps_follow (fuel : Nat) (s : FleetSession) (t : FleetTask) (p : Progress) :
    s.fleet.Keeps (follow fuel s t p).fleet := by
  induction fuel generalizing s p with
  | zero => exact .refl _
  | succ fuel ih =>
      cases p with
      | ended result =>
          rw [follow, fleet_finish]
          exact .refl _
      | calling call =>
          rw [follow, fleet_send]
          exact .refl _
      | queued =>
          simp only [follow]
          split
          · have hnext := ih (s.setFleet (s.fleet.step s.now t.id .expire).1)
              (s.fleet.step s.now t.id .expire).2
            rw [fleet_setFleet] at hnext
            exact (Fleet.Keeps.step s.fleet s.now t.id .expire).trans hnext
          · exact .refl _
      | nothing => exact .refl _

/-- An event of a request. -/
theorem keeps_onRoute (s : FleetSession) (t : FleetTask) (e : RouteEvent) :
    s.fleet.Keeps (s.onRoute t e).fleet := by
  have hfollow := keeps_follow (s.fleet.tracker.nodes.length + 2)
    (s.setFleet (s.fleet.step s.now t.id e).1) t (s.fleet.step s.now t.id e).2
  rw [fleet_setFleet] at hfollow
  exact (Fleet.Keeps.step s.fleet s.now t.id e).trans hfollow

/-- A sweep that goes on, when it is told the address of the pool if it is to open a connection. -/
theorem keeps_continueSweep (fuel : Nat) (s : FleetSession) (t : FleetTask)
    (o : PoolOutcome Endpoint)
    (hfill : ∀ url, o = .fill url → url = s.fleet.pool.pool.config.defaultBaseUrl) :
    s.fleet.Keeps (continueSweep fuel s t o).fleet := by
  induction fuel generalizing s o with
  | zero => exact .refl _
  | succ fuel ih =>
      -- The next event of a sweep, and what the sweep does when it has been told what came of it.
      have hnext : ∀ (u : FleetSession) (e : PoolEvent Endpoint), e.caller? = none →
          Genuine u.fleet.http (u.fleet.pool.brought e) →
          u.fleet.Keeps (continueSweep fuel (u.onPool e).1 t (u.onPool e).2).fleet := by
        intro u e hcaller hbrought
        refine (keeps_onPool hbrought).trans (ih _ _ fun url hurl => ?_)
        have hfleet : (u.onPool e).1.fleet = (u.fleet.onPool u.now e).1 := fleet_setFleet u _
        rw [hfleet]
        exact PoolRun.default_of_fill hcaller hurl
      cases o with
      | probe candidates =>
          have hsent := fleet_sendProbes s t.id candidates
          simp only [continueSweep]
          split
          · rw [← hsent]
            exact .refl _
          · rw [← hsent]
            exact hnext _ (.probed t.id _) rfl (genuine_of_eq_nil rfl)
      | refill => exact hnext s (.refill t.id) rfl (genuine_of_eq_nil rfl)
      | fill url =>
          obtain rfl := hfill url rfl
          exact hnext s (.warmed t.id _) rfl (genuine_warmed s.fleet t.id)
      | _ => exact .refl _

/-- A sweep after an event that brings no connection. -/
theorem keeps_onSweep (s : FleetSession) (t : FleetTask) (hcaller : e.caller? = none)
    (hnone : s.fleet.pool.brought e = []) : s.fleet.Keeps (s.onSweep t e).fleet := by
  refine (keeps_onPool (genuine_of_eq_nil hnone)).trans (keeps_continueSweep _ _ t _ ?_)
  intro url hurl
  have hfleet : (s.onPool e).1.fleet = (s.fleet.onPool s.now e).1 := fleet_setFleet s _
  rw [hfleet]
  exact PoolRun.default_of_fill hcaller hurl

/-- A task that is dropped. -/
theorem keeps_dropTask (s : FleetSession) (t : FleetTask) :
    s.fleet.Keeps (s.dropTask t).fleet := by
  have hdrop : s.fleet.Keeps (s.setFleet (s.fleet.step s.now t.id .drop).1).fleet := by
    rw [fleet_setFleet]
    exact .step s.fleet s.now t.id .drop
  unfold dropTask
  split
  · exact keeps_onPool (e := .abandonSweep t.id) (genuine_of_eq_nil rfl)
  · exact hdrop
  · dsimp only
    split
    · exact hdrop
    · exact hdrop

/-- **A turn** of a task. -/
theorem keeps_runTask (s : FleetSession) (t : FleetTask) : s.fleet.Keeps (s.runTask t).fleet := by
  unfold runTask
  split
  · exact keeps_onRoute s t _
  · exact keeps_onRoute s t _
  · exact keeps_onSweep s t rfl rfl
  · exact keeps_onRoute s t _
  · exact keeps_onRoute s t _
  · exact keeps_onSweep s t rfl rfl
  · exact .refl _

theorem keeps_runId (s : FleetSession) (id : Nat) : s.fleet.Keeps (s.runId id).fleet := by
  unfold runId
  split
  · exact .refl _
  · split
    · exact keeps_dropTask s _
    · exact keeps_runTask s _

/-- Tasks that take turns until all wait. -/
theorem keeps_drain (fuel : Nat) (s : FleetSession) : s.fleet.Keeps (drain fuel s).fleet := by
  induction fuel generalizing s with
  | zero => exact .refl _
  | succ fuel ih =>
      unfold drain
      split
      · rename_i id rest _
        exact (keeps_runId { s with ready := rest } id).trans (ih _)
      · rename_i id outcome rest _ _
        have hanswered := ih ({ s with arriving := rest }.resolve id outcome)
        rw [fleet_resolve] at hanswered
        exact hanswered
      · exact .refl _

/-! ## Time -/

/-- The timers of an instant. -/
theorem keeps_ring (s : FleetSession) (time : Nat) : s.fleet.Keeps (s.ring time).fleet := by
  unfold ring
  refine List.foldlRecOn (motive := fun u : FleetSession => s.fleet.Keeps u.fleet) _ _
    (.same rfl rfl rfl) ?_
  intro u hu timer htimer
  have hleaves : (timer.2 u).fleet = u.fleet := by
    rcases List.mem_append.mp (List.mem_mergeSort.mp htimer) with hdue | hdue
    · obtain ⟨due, -, rfl⟩ := List.mem_map.mp hdue
      exact fleet_wake u _
    · obtain ⟨x, -, rfl⟩ := List.mem_map.mp hdue
      exact fleet_resolve u _ _
  rw [hleaves]
  exact hu

theorem keeps_advanceTo (fuel limit : Nat) (s : FleetSession) :
    s.fleet.Keeps (advanceTo fuel limit s).fleet := by
  induction fuel generalizing s with
  | zero => exact keeps_ring s limit
  | succ fuel ih =>
      unfold advanceTo
      split
      · exact (keeps_ring s _).trans ((keeps_drain _ _).trans (ih _))
      · exact keeps_ring s limit

/-! ## Operations -/

/-- A fan-out begins, and has not asked for anything yet. -/
theorem fleet_fanOut (s : FleetSession) (label : String) (body : Json) :
    (s.fanOut label body).fleet = s.fleet :=
  (s.fanOut_begins label body).1

/-- A page changes breakers at most. -/
theorem keeps_serve (f : Fleet) (now : Nat) (method uri : String) :
    f.Keeps (f.serve now method uri).1 := by
  unfold Fleet.serve
  split
  · exact .refl f
  split
  · exact .refl f
  · rename_i p _
    split
    · cases p <;> exact .same rfl rfl rfl
    · exact .refl f

/-- **Step theorem.**  No operation of a session changes how endpoints are called, or brings a
connection that does not lead where it should. -/
theorem keeps_step (s : FleetSession) (op : Step) : s.fleet.Keeps (s.step op).1.fleet := by
  have hsame : ∀ {f : Fleet}, f = s.fleet → s.fleet.Keeps f := by
    rintro f rfl
    exact .refl _
  cases op with
  | message m => exact .same rfl rfl rfl
  | sweep => exact .same rfl rfl rfl
  | dispatch label request => exact hsame (s.fleet_spawn label _)
  | fanOut label body => exact hsame (s.fleet_fanOut label body)
  | sweepPool label => exact hsame (s.fleet_spawn label _)
  | script lists => exact .refl _
  | respond hold => exact hsame (s.fleet_letGo hold true)
  | dropHold hold => exact hsame (s.fleet_letGo hold false)
  | cancel label => exact hsame (s.fleet_cancel label)
  | advance ms => exact keeps_advanceTo _ _ s
  | trip key => exact .same rfl rfl rfl
  | reset key => exact .same rfl rfl rfl
  | failCredential failure => exact .same rfl rfl rfl
  | selectCredential index =>
      simp only [step]
      split
      · exact .same rfl rfl rfl
      · exact .refl _
  | shutdownPool => exact keeps_onPool (e := .shutdown) (genuine_of_eq_nil rfl)
  | serve method uri => exact keeps_serve s.fleet s.now method uri
  | samples => exact .refl _

/-- The turns after an operation, and the look at the breakers. -/
theorem keeps_settleStep (s : FleetSession) : s.fleet.Keeps s.settleStep.1.observe.1.fleet :=
  (keeps_drain s.turns s).trans (.same rfl rfl rfl)

/-- A session after operations, each with the turns that follow it and a look at the breakers. -/
def run (s : FleetSession) (ops : List Step) : FleetSession :=
  ops.foldl (fun s op => (s.step op).1.settleStep.1.observe.1) s

/-- A session begins with a connected fleet, its pool filled or not. -/
theorem connected_new {tracker : Cluster.MembershipConfig} {breakers : BreakerConfig}
    {pool : PoolConfig} {slots : List Credential.Slot} {rotation : Credential.RotationConfig}
    {http : HttpConfig} {script : Script} {readTarget : TargetReader}
    (h : FleetSession.new tracker breakers pool slots rotation http script readTarget = .ok s) :
    s.fleet.Connected := by
  unfold FleetSession.new at h
  split at h
  · cases h
  · rename_i empty hempty
    obtain rfl := Except.ok.inj h
    dsimp only
    refine (keeps_onSweep _ _ (e := .warm 0) rfl rfl).connected ?_
    exact Fleet.connected_of_new hempty rfl

/-- **Where the connections of a session lead.**  In a session that has begun, whatever its
operations and however its tasks take turns, the connections in the pool of its fleet lead to the
addresses under which they are filed. -/
theorem run_connected {tracker : Cluster.MembershipConfig} {breakers : BreakerConfig}
    {pool : PoolConfig} {slots : List Credential.Slot} {rotation : Credential.RotationConfig}
    {http : HttpConfig} {script : Script} {readTarget : TargetReader}
    (h : FleetSession.new tracker breakers pool slots rotation http script readTarget = .ok s)
    (ops : List Step) : (s.run ops).fleet.Connected := by
  have hkeeps : s.fleet.Keeps (s.run ops).fleet := by
    unfold run
    refine List.foldlRecOn (motive := fun u : FleetSession => s.fleet.Keeps u.fleet) _ _ (.refl _) ?_
    intro u hu op _
    exact (hu.trans (keeps_step u op)).trans (keeps_settleStep _)
  exact hkeeps.connected (connected_new h)

end FleetSession

end InferenceRouting
