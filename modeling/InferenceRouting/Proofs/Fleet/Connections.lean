import InferenceRouting.Proofs.Fleet.Attempts
import InferenceRouting.Proofs.Pool.Links

/-!
# Where the connections of a fleet lead

The connections in the pool of a fleet were opened for it: each one leads to the endpoint at the
address under which it is filed (`Connected`).  An event of a request keeps it so, since the only
connection it brings is one to the address for which it was told to open one.  An event of the pool
keeps it so if the connection that it brings leads there, too (`Connected.onPool`).  So it holds
after every run that began with an empty pool (`run_connected`), and in every session
(`FleetSession.run_connected`).

What a request is granted is then a connection to the address of its node (`poolReply_answers`).
-/

namespace InferenceRouting

open Cluster (Node)
open Http (Call Endpoint HttpConfig TargetReader)

/-- The connections lead to the endpoints at the addresses under which they are filed. -/
def Genuine (http : HttpConfig) (links : List (String × Endpoint)) : Prop :=
  ∀ link ∈ links, Endpoint.connect http link.1 = .ok link.2

/-- No connection leads elsewhere if there is none. -/
theorem genuine_of_eq_nil {http : HttpConfig} {links : List (String × Endpoint)}
    (h : links = []) : Genuine http links := by
  intro link hlink
  rw [h] at hlink
  cases hlink

namespace Fleet

/-- All connections in the pool of a fleet lead where they should. -/
structure Connected (f : Fleet) : Prop where
  sound : f.pool.Sound
  genuine : Genuine f.http f.pool.pool.links

/-- A step that calls endpoints in the same way as before, and keeps a fleet connected. -/
structure Keeps (f g : Fleet) : Prop where
  http : g.http = f.http
  readTarget : g.readTarget = f.readTarget
  connected : f.Connected → g.Connected

variable {f g k : Fleet} {now id : Nat} {node : Node} {rest : List Node} {r : Route} {url : String}
  {purpose : Purpose} {plan : Plan} {met : Option Encounter} {out : Fleet × Attempt}
  {e : PoolEvent Endpoint}

/-- A fleet with an empty pool is connected. -/
theorem connected_of_new {config : PoolConfig} {p : Pool Endpoint} (hp : Pool.new config = .ok p)
    (hpool : f.pool = { pool := p }) : f.Connected := by
  have hlinks : p.links = [] := by
    unfold Pool.new at hp
    split at hp
    · cases hp
    · cases hp
      rfl
  refine ⟨hpool ▸ PoolRun.sound_new hp, genuine_of_eq_nil ?_⟩
  rw [hpool, hlinks]

/-- **The pool.**  An event whose connection leads where it should keeps a fleet connected. -/
theorem Connected.onPool (h : f.Connected) (hbrought : Genuine f.http (f.pool.brought e))
    (now : Nat) : (f.onPool now e).1.Connected := by
  refine ⟨PoolRun.step_sound h.sound now e, fun link hlink => ?_⟩
  rcases List.mem_append.mp ((PoolRun.step_draws f.pool now e).linked hlink) with hlink | hlink
  · exact h.genuine link hlink
  · exact hbrought link hlink

/-- A caller that is told to open a connection waits for one to that address. -/
theorem wanted_of_open (hcaller : e.caller? = some id) (hopen : (f.onPool now e).2 = .open url) :
    (f.onPool now e).1.pool.wanted id = some url :=
  (PoolRun.step_leaves f.pool now hcaller).opens url hopen

/-- **The pool's answer to a request** keeps a fleet connected, the connection included that it may
have opened. -/
theorem Connected.poolReply (h : f.Connected) (hcaller : e.caller? = some id)
    (hbrought : Genuine f.http (f.pool.brought e)) (now : Nat) :
    (f.poolReply now id e).1.Connected := by
  have hfirst := h.onPool hbrought now
  unfold Fleet.poolReply
  split
  · rename_i url hopen
    exact hfirst.onPool (PoolRun.brought_opened (wanted_of_open hcaller hopen)) now
  · exact hfirst

/-- **What a request is answered.**  It is granted a connection to the address it asks for, or it
waits for one, or it is rejected, or no connection to the address can be opened. -/
theorem poolReply_answers (h : f.Connected) (hcaller : e.caller? = some id)
    (hbrought : Genuine f.http (f.pool.brought e))
    (hfirst : PoolRun.Answers (Endpoint.connect f.http) id url (f.pool.step now e)) :
    PoolRun.Answers (Endpoint.connect f.http) id url
      ((f.poolReply now id e).1.pool, (f.poolReply now id e).2) := by
  have hconnected := h.onPool hbrought now
  unfold Fleet.poolReply
  split
  · rename_i u hopen
    obtain rfl := hfirst.opens u hopen
    exact PoolRun.opened_answers hconnected.sound hconnected.genuine
      (wanted_of_open hcaller hopen) now
  · exact hfirst

namespace Keeps

theorem refl (f : Fleet) : f.Keeps f :=
  ⟨rfl, rfl, fun h => h⟩

theorem trans (h : f.Keeps g) (h' : g.Keeps k) : f.Keeps k :=
  ⟨h'.http.trans h.http, h'.readTarget.trans h.readTarget, fun hf => h'.connected (h.connected hf)⟩

/-- What leaves the pool and the way to call endpoints as they are. -/
theorem same (hhttp : g.http = f.http) (hread : g.readTarget = f.readTarget)
    (hpool : g.pool = f.pool) : f.Keeps g := by
  refine ⟨hhttp, hread, fun h => ⟨hpool ▸ h.sound, ?_⟩⟩
  rw [hhttp, hpool]
  exact h.genuine

/-- An event of the pool whose connection leads where it should. -/
theorem onPool (hbrought : Genuine f.http (f.pool.brought e)) (now : Nat) :
    f.Keeps (f.onPool now e).1 :=
  ⟨rfl, rfl, fun h => h.onPool hbrought now⟩

/-- An event that brings no connection. -/
theorem onPool_of_brought_eq_nil (f : Fleet) (now : Nat) (hnone : f.pool.brought e = []) :
    f.Keeps (f.onPool now e).1 :=
  onPool (genuine_of_eq_nil hnone) now

theorem finishCall (f : Fleet) (now : Nat) (r : Route) (result : Except RoutingError Json) :
    f.Keeps (f.finishCall now r result).1 :=
  (onPool_of_brought_eq_nil f now (e := .release r.id) rfl).trans (same rfl rfl rfl)

/-- The pool's answer to an event of a request that brings no connection itself. -/
theorem poolReply (f : Fleet) (now : Nat) (hcaller : e.caller? = some id)
    (hnone : f.pool.brought e = []) : f.Keeps (f.poolReply now id e).1 := by
  have heq := f.poolReply_eq now id e
  exact ⟨by rw [heq], by rw [heq], fun h => h.poolReply hcaller (genuine_of_eq_nil hnone) now⟩

/-- What a request does after the pool's answer. -/
theorem turn (h : Turn now g r met out) : g.Keeps out.1 := by
  cases h with
  | waits => exact same rfl rfl rfl
  | refused e => exact same rfl rfl rfl
  | calls call => exact same rfl rfl rfl
  | unsendable endpoint he => exact finishCall g now r _

/-- An attempt at a node. -/
theorem attempt (f : Fleet) (now id : Nat) (purpose : Purpose) (plan : Plan) (node : Node)
    (rest : List Node) : f.Keeps (f.attempt now id purpose plan node rest).1 := by
  have hasked : f.Keeps (f.askBreaker now node).1 := same rfl rfl rfl
  rcases attempt_cases f now id purpose plan node rest with
    ⟨g, e, hanswer, -, hattempt⟩ | ⟨g, ticket, hanswer, -, hturn⟩
  · rw [hanswer] at hasked
    rw [hattempt]
    exact hasked
  · rw [hanswer] at hasked
    exact (hasked.trans (poolReply g now rfl rfl)).trans (turn hturn)

/-- A request that goes on after an attempt. -/
theorem proceed (f : Fleet) (now id : Nat) (purpose : Purpose) (plan : Plan) (rest : List Node)
    (node : Node) (step : Attempt) :
    f.Keeps (Fleet.proceed now id purpose plan rest node f step).1 := by
  induction rest generalizing f node step with
  | nil =>
      cases step with
      | finished result => cases result <;> exact same rfl rfl rfl
      | _ => exact refl f
  | cons next rest ih =>
      cases step with
      | finished result =>
          cases result with
          | ok value => exact same rfl rfl rfl
          | error e =>
              simp only [Fleet.proceed]
              split
              · exact same rfl rfl rfl
              · exact (attempt f now id purpose plan next rest).trans (ih _ next _)
      | _ => exact refl f

/-- An event of the pool that concerns a request and brings no connection itself. -/
theorem poolEvent (f : Fleet) (now : Nat) (r : Route) (hcaller : e.caller? = some r.id)
    (hnone : f.pool.brought e = []) : f.Keeps (f.poolEvent now r e).1 := by
  have hreply := poolReply f now hcaller hnone
  have hturn := turn (afterOpening_turn (f.poolReply now r.id e).1 now r
    (f.poolReply now r.id e).2)
  rw [← afterPool_eq] at hturn
  exact (hreply.trans hturn).trans (proceed _ now r.id r.purpose r.plan r.rest r.node _)

/-- A request that is given up. -/
theorem giveUp (f : Fleet) (now : Nat) (r : Route) : f.Keeps (f.giveUp now r) := by
  have hrelease := onPool_of_brought_eq_nil f now (e := .release r.id) rfl
  have habandon := onPool_of_brought_eq_nil (f.onPool now (.release r.id)).1 now
    (e := .abandon r.id) rfl
  exact (hrelease.trans habandon).trans (same rfl rfl rfl)

/-- The beginning of a request. -/
theorem begin (f : Fleet) (now id : Nat) (purpose : Purpose) (plan : Plan) (node : Node)
    (rest : List Node) : f.Keeps (f.begin now id purpose plan node rest).1 :=
  (attempt f now id purpose plan node rest).trans (proceed _ now id purpose plan rest node _)

/-- **Requests.**  No event of a request changes how endpoints are called, or brings a connection
that does not lead where it should. -/
theorem step (f : Fleet) (now id : Nat) (e : RouteEvent) : f.Keeps (f.step now id e).1 := by
  unfold Fleet.step
  split
  · rename_i r hroute
    cases e with
    | dispatch request => exact refl f
    | drive pair body => exact refl f
    | collect => exact poolEvent f now r rfl rfl
    | expire => exact poolEvent f now r rfl rfl
    | answered result =>
        simp only [stepRoute]
        split
        · exact (finishCall f now r result).trans
            (proceed _ now r.id r.purpose r.plan r.rest r.node _)
        · exact refl f
    | drop => exact giveUp f now r
  · split
    · simp only [dispatch]
      split
      · exact refl f
      · exact refl f
      · exact begin f now id _ _ _ _
    · simp only [drive]
      split
      · exact refl f
      · exact begin f now id _ _ _ _
    · exact refl f

end Keeps

/-- **Where connections lead.**  However requests take their course, the connections in the pool of
a fleet lead to the addresses under which they are filed, if they did so at first. -/
theorem run_connected (h : f.Connected) (events : List (Nat × Nat × RouteEvent)) :
    (f.run events).Connected := by
  induction events generalizing f with
  | nil => exact h
  | cons e rest ih => exact ih ((Keeps.step f e.1 e.2.1 e.2.2).connected h)

end Fleet

end InferenceRouting
