import InferenceRouting.Fleet.Basic
import InferenceRouting.Proofs.Credential.Records

/-!
# Which slot the outcome of a request is charged to

A request carries the credential of the slot it captured when it began (`Captured`).  Between that
moment and its end other requests run, and one that fails may move the active place on.  An outcome
of a dispatched request is charged to the slot that is active when it is known, whichever slot the
request was sent with; that of a driven slot is charged to the slot itself.

* `step_settles` says once what a step does: it leaves the rotation alone until a request is over,
  and then charges the result to it by the request's purpose.
* `run_misplaces_iff` says exactly when a record of a slot changes that the request was not sent
  with: a dispatched request ends, its slot is no longer the active one, and its outcome leaves a
  mark on the slot that is active instead.
-/

namespace InferenceRouting

open Credential (KeyModelPair Rotation Failure Slot)

namespace Purpose

/-- Whether an outcome changes the record of the active slot when it is charged to it: a failure of
an endpoint always does, a success when there is a record to clear. -/
def Marks {α : Type} (r : Rotation) : Except RoutingError α → Prop
  | .ok _ => (r.record? r.active).isSome
  | .error e => e.countsAsEndpointFailure = true

variable {α : Type} {r : Rotation} (now : Nat) (result : Except RoutingError α)

/-- Charging keeps the slots. -/
@[simp]
theorem slots_charge (p : Purpose) : (p.charge now result r).slots = r.slots := by
  cases p <;> cases result <;> simp only [charge] <;> try split
  all_goals simp [Rotation.reportSuccess, Rotation.recordOutcome]

/-- Charging keeps a rotation well formed. -/
theorem wellFormed_charge (h : r.WellFormed) (p : Purpose) :
    (p.charge now result r).WellFormed := by
  cases p with
  | active =>
      cases result with
      | ok _ => exact h.reportSuccess
      | error e =>
          simp only [charge]
          split
          · exact h.reportFailure now _
          · exact h
  | slot i =>
      cases result with
      | ok _ => exact h.recordOutcome now i false
      | error e =>
          simp only [charge]
          split
          · exact h.recordOutcome now i true
          · exact h

/-- A charge to the active slot leaves the records of the others alone. -/
theorem record?_charge_active_of_ne (h : r.WellFormed) {j : Nat} (hj : j ≠ r.active) :
    (Purpose.active.charge now result r).record? j = r.record? j := by
  cases result with
  | ok _ => simp [charge, Rotation.record?_reportSuccess h, hj]
  | error e =>
      by_cases hs : r.slots = []
      · simp [charge, Rotation.reportFailure_of_no_slots hs]
      · simp only [charge]
        split
        · simp [Rotation.record?_reportFailure h hs, hj]
        · rfl

/-- A charge to the active slot changes its record exactly when the outcome leaves a mark. -/
theorem record?_charge_active_ne_iff (h : r.WellFormed) (hs : r.slots ≠ []) :
    (Purpose.active.charge now result r).record? r.active ≠ r.record? r.active ↔
      Marks r result := by
  cases result with
  | ok _ =>
      simp only [charge, Rotation.record?_reportSuccess h, Marks, if_true]
      cases r.record? r.active <;> simp
  | error e =>
      by_cases he : e.countsAsEndpointFailure = true
      · simp only [charge, he, if_true, Rotation.record?_reportFailure h hs, Marks]
        exact iff_of_true (Rotation.failedAgain_ne now _) trivial
      · simp [charge, he, Marks]

/-- A charge to the active slot that changes a record changes that of the active slot. -/
theorem eq_active_of_record?_charge_ne (h : r.WellFormed) {j : Nat}
    (hj : (Purpose.active.charge now result r).record? j ≠ r.record? j) :
    j = r.active ∧ r.slots ≠ [] ∧ Marks r result := by
  have hactive : j = r.active :=
    Decidable.byContradiction fun hne => hj (record?_charge_active_of_ne now result h hne)
  have hslots : r.slots ≠ [] := by
    intro hnil
    have hcharged := wellFormed_charge now result h .active
    apply hj
    rw [Rotation.record?_eq_none h (by simp [hnil]),
      Rotation.record?_eq_none hcharged (by simp [hnil])]
  subst hactive
  exact ⟨rfl, hslots, (record?_charge_active_ne_iff now result h hslots).mp hj⟩

/-- A charge to a named slot leaves the records of the others alone. -/
theorem record?_charge_slot_of_ne {i j : Nat} (hj : j ≠ i) :
    ((Purpose.slot i).charge now result r).record? j = r.record? j := by
  cases result with
  | ok _ => exact Rotation.record?_recordOutcome_of_ne r now false hj
  | error e =>
      simp only [charge]
      split
      · exact Rotation.record?_recordOutcome_of_ne r now true hj
      · rfl

end Purpose

namespace Fleet

/-- A request with this purpose carries the credential of the slot in its plan: one of the slots, or
none if there are none.  A driven slot stands in the plan itself. -/
def Captured (slots : List Slot) : Purpose → Plan → Prop
  | .active, plan =>
    (slots = [] ∧ plan.slot = none ∧ plan.secret = none) ∨
      ∃ i s, slots[i]? = some s ∧ plan.slot = some i ∧ plan.secret = some s.secret
  | .slot i, plan => plan.slot = some i

/-- One fleet comes from another by steps that leave the rotation alone and add no request but one
with the purpose and plan given. -/
structure Extends (f g : Fleet) (purpose : Purpose) (plan : Plan) : Prop where
  rotation : g.rotation = f.rotation
  routes : ∀ r ∈ g.routes, r ∈ f.routes ∨ (r.purpose = purpose ∧ r.plan = plan)

/-- The fleet and the progress after a step that led to `g`: the outcome of a request that is over
has been charged, and nothing else has changed. -/
def Settles (purpose : Purpose) (now : Nat) (g : Fleet) : Fleet × Progress → Prop
  | (f, .ended result) => f = { g with rotation := purpose.charge now result g.rotation }
  | (f, _) => f = g

namespace Extends

variable {f g k : Fleet} {purpose : Purpose} {plan : Plan}

/-- A fleet extends itself. -/
theorem refl (f : Fleet) (purpose : Purpose) (plan : Plan) : Extends f f purpose plan :=
  ⟨rfl, fun _ hr => Or.inl hr⟩

/-- Extensions compose. -/
theorem trans (h : Extends f g purpose plan) (h' : Extends g k purpose plan) :
    Extends f k purpose plan where
  rotation := h'.rotation.trans h.rotation
  routes r hr := by
    rcases h'.routes r hr with hg | hnew
    · exact h.routes r hg
    · exact Or.inr hnew

/-- An event of the pool leaves the rotation and the requests alone. -/
theorem onPool (f : Fleet) (now : Nat) (e : PoolEvent Http.Endpoint) (purpose : Purpose)
    (plan : Plan) : Extends f (f.onPool now e).1 purpose plan :=
  ⟨rfl, fun _ hr => Or.inl hr⟩

/-- Forgetting a request is an extension, whatever becomes of the registry. -/
theorem forget (f : Fleet) (id : Nat) (registry : Registry) (purpose : Purpose) (plan : Plan) :
    Extends f { f.forget id with registry } purpose plan :=
  ⟨rfl, fun _ hr => Or.inl (List.mem_filter.mp hr).1⟩

/-- Noting where a request is extends the fleet by that request. -/
theorem keep (f : Fleet) (r : Route) : Extends f (f.keep r) r.purpose r.plan := by
  refine ⟨rfl, fun q hq => ?_⟩
  rcases List.mem_append.mp hq with hold | hnew
  · exact Or.inl (List.mem_filter.mp hold).1
  · have hqr : q = r := by simpa using hnew
    exact Or.inr ⟨congrArg Route.purpose hqr, congrArg Route.plan hqr⟩

end Extends

variable (f : Fleet) (now : Nat)

/-- The end of an attempt at a node leaves the rotation alone. -/
theorem conclude_extends (r : Route) (result : Except RoutingError Json) :
    Extends f (f.conclude now r result).1 r.purpose r.plan :=
  Extends.forget f r.id _ _ _

/-- Making a call leaves the rotation alone. -/
theorem makeCall_extends (r : Route) (endpoint : Http.Endpoint) :
    Extends f (f.makeCall now r endpoint).1 r.purpose r.plan := by
  unfold makeCall
  split
  · exact Extends.keep f r
  · exact (Extends.onPool f now (.release r.id) _ _).trans (conclude_extends _ now r _)

/-- The pool's answer leaves the rotation alone once no connection has to be opened any more. -/
theorem afterOpening_extends (r : Route) (o : PoolOutcome Http.Endpoint) :
    Extends f (f.afterOpening now r o).1 r.purpose r.plan := by
  cases o with
  | granted lease => exact makeCall_extends f now r lease.connection
  | refused e => exact conclude_extends f now r _
  | _ => exact Extends.keep f r

/-- The pool's answer leaves the rotation alone. -/
theorem afterPool_extends (r : Route) (o : PoolOutcome Http.Endpoint) :
    Extends f (f.afterPool now r o).1 r.purpose r.plan := by
  cases o with
  | «open» url =>
      have hopen := Extends.onPool f now (.opened r.id (Http.Endpoint.connect f.http url))
        r.purpose r.plan
      exact hopen.trans (afterOpening_extends _ now r _)
  | _ => exact afterOpening_extends f now r _

/-- An attempt at a node leaves the rotation alone. -/
theorem attempt_extends (id : Nat) (purpose : Purpose) (plan : Plan) (node : Cluster.Node)
    (rest : List Cluster.Node) :
    Extends f (f.attempt now id purpose plan node rest).1 purpose plan := by
  unfold attempt
  dsimp only
  split
  · exact ⟨rfl, fun _ hr => Or.inl hr⟩
  · rename_i registry ticket _
    let r : Route := { id, purpose, plan, node, rest, ticket }
    have hregistry : Extends f { f with registry } purpose plan := ⟨rfl, fun _ hr => Or.inl hr⟩
    have hpool := Extends.onPool { f with registry } now (.acquire id (some node.baseUrl)) purpose
      plan
    exact (hregistry.trans hpool).trans (afterPool_extends _ now r _)

/-- Going on after an attempt settles the request: it is charged once it is over. -/
theorem proceed_settles (id : Nat) (purpose : Purpose) (plan : Plan)
    (rest : List Cluster.Node) (node : Cluster.Node) (a : Attempt) :
    ∃ g, Extends f g purpose plan ∧
      Settles purpose now g (proceed now id purpose plan rest node f a) := by
  induction rest generalizing f node a with
  | nil =>
      refine ⟨f, Extends.refl f _ _, ?_⟩
      cases a with
      | queued => rfl
      | calling call => rfl
      | finished result => cases result <;> rfl
  | cons next rest ih =>
      cases a with
      | queued => exact ⟨f, Extends.refl f _ _, rfl⟩
      | calling call => exact ⟨f, Extends.refl f _ _, rfl⟩
      | finished result =>
          cases result with
          | ok value => exact ⟨f, Extends.refl f _ _, rfl⟩
          | error e =>
              by_cases he : e.countsAsEndpointFailure = true
              · refine ⟨f, Extends.refl f _ _, ?_⟩
                simp only [proceed, he, if_true]
                rfl
              · obtain ⟨g, hg, hs⟩ := ih (f.attempt now id purpose plan next rest).1 next
                  (f.attempt now id purpose plan next rest).2
                refine ⟨g, (attempt_extends f now id purpose plan next rest).trans hg, ?_⟩
                simpa only [proceed, he, Bool.false_eq_true, if_false] using hs

/-- What a driven slot is sent with. -/
def drivePlan (pair : KeyModelPair) (body : Json) : Plan where
  model := pair.model
  body := InferenceRequest.bodyFor pair.model body
  secret := some pair.secret
  slot := some pair.index

/-- The purpose and the plan of the request that an event concerns: of the one under way, else of
the one that begins. -/
def concern? (id : Nat) (e : RouteEvent) : Option (Purpose × Plan) :=
  match f.route? id with
  | some r => some (r.purpose, r.plan)
  | none =>
    match e with
    | .dispatch request =>
      some (.active, f.planFor (request.model.getD f.rotation.currentModel) request)
    | .drive pair body => some (.slot pair.index, drivePlan pair body)
    | _ => none

/-- The slot whose credential the request is sent with that an event concerns. -/
def slotOf? (id : Nat) (e : RouteEvent) : Option Nat :=
  (f.concern? id e).bind (·.2.slot)

/-- A step charges a slot that the request was not sent with. -/
def Misplaces (id : Nat) (e : RouteEvent) : Prop :=
  ∃ j, (f.step now id e).1.rotation.record? j ≠ f.rotation.record? j ∧ f.slotOf? id e ≠ some j

/-- The rotation is well formed, and every request carries the credential it captured. -/
structure Sound (f : Fleet) : Prop where
  rotation : f.rotation.WellFormed
  routes : ∀ r ∈ f.routes, Captured f.rotation.slots r.purpose r.plan

/-- A dispatched request is charged once it is over; one that is refused at once leaves no trace. -/
theorem dispatch_settles (id : Nat) (request : InferenceRequest) :
    ∃ g, Extends f g .active (f.planFor (request.model.getD f.rotation.currentModel) request) ∧
      Settles .active now g (f.dispatch now id request) := by
  unfold dispatch
  dsimp only
  split
  · exact ⟨f, Extends.refl f _ _, rfl⟩
  · rename_i e _ herror
    have hneutral : e.countsAsEndpointFailure = false := by
      unfold Rotation.ensureAvailable at herror
      split at herror <;> cases herror
      rfl
    refine ⟨f, Extends.refl f _ _, ?_⟩
    simp [Settles, Purpose.charge, hneutral]
  · rename_i node rest _ _
    obtain ⟨g, hg, hs⟩ := proceed_settles (f.attempt now id .active _ node rest).1 now id .active
      (f.planFor (request.model.getD f.rotation.currentModel) request) rest node
      (f.attempt now id .active _ node rest).2
    exact ⟨g, (attempt_extends f now id .active _ node rest).trans hg, hs⟩

/-- A slot that is driven is charged to itself once it is over. -/
theorem drive_settles (id : Nat) (pair : KeyModelPair) (body : Json) :
    ∃ g, Extends f g (.slot pair.index) (drivePlan pair body) ∧
      Settles (.slot pair.index) now g (f.drive now id pair body) := by
  unfold drive
  split
  · exact ⟨f, Extends.refl f _ _, rfl⟩
  · rename_i node rest _
    obtain ⟨g, hg, hs⟩ := proceed_settles
      (f.attempt now id (.slot pair.index) (drivePlan pair body) node rest).1 now id
      (.slot pair.index) (drivePlan pair body) rest node
      (f.attempt now id (.slot pair.index) (drivePlan pair body) node rest).2
    exact ⟨g, (attempt_extends f now id _ _ node rest).trans hg, hs⟩

/-- An event on a request under way charges it by its own purpose once it is over. -/
theorem stepRoute_settles (r : Route) (e : RouteEvent) :
    ∃ g, Extends f g r.purpose r.plan ∧ Settles r.purpose now g (f.stepRoute now r e) := by
  have hpool (pe : PoolEvent Http.Endpoint) :
      ∃ g, Extends f g r.purpose r.plan ∧ Settles r.purpose now g (f.poolEvent now r pe) := by
    have hon := Extends.onPool f now pe r.purpose r.plan
    obtain ⟨g, hg, hs⟩ := proceed_settles
      ((f.onPool now pe).1.afterPool now r (f.onPool now pe).2).1 now r.id r.purpose r.plan
      r.rest r.node ((f.onPool now pe).1.afterPool now r (f.onPool now pe).2).2
    exact ⟨g, (hon.trans (afterPool_extends _ now r _)).trans hg, hs⟩
  cases e with
  | dispatch request => exact ⟨f, Extends.refl f _ _, rfl⟩
  | drive pair body => exact ⟨f, Extends.refl f _ _, rfl⟩
  | collect => exact hpool (.collect r.id)
  | expire => exact hpool (.expire r.id)
  | answered result =>
      simp only [stepRoute]
      split
      · have hon := Extends.onPool f now (.release r.id) r.purpose r.plan
        obtain ⟨g, hg, hs⟩ := proceed_settles (f.finishCall now r result).1 now r.id r.purpose
          r.plan r.rest r.node (f.finishCall now r result).2
        exact ⟨g, (hon.trans (conclude_extends _ now r result)).trans hg, hs⟩
      · exact ⟨f, Extends.refl f _ _, rfl⟩
  | drop =>
      refine ⟨f.giveUp now r, ?_, rfl⟩
      have hrelease := Extends.onPool f now (.release r.id) r.purpose r.plan
      have habandon := Extends.onPool (f.onPool now (.release r.id)).1 now (.abandon r.id)
        r.purpose r.plan
      exact (hrelease.trans habandon).trans (Extends.forget _ r.id _ _ _)

/-- **What a step does.**  It leaves the rotation alone until the request that the event concerns is
over, and then charges the result by the request's purpose. -/
theorem step_settles {id : Nat} {e : RouteEvent} {purpose : Purpose} {plan : Plan}
    (h : f.concern? id e = some (purpose, plan)) :
    ∃ g, Extends f g purpose plan ∧ Settles purpose now g (f.step now id e) := by
  unfold concern? at h
  unfold step
  cases hroute : f.route? id with
  | some r =>
      simp only [hroute, Option.some.injEq, Prod.mk.injEq] at h
      obtain ⟨rfl, rfl⟩ := h
      exact stepRoute_settles f now r e
  | none =>
      simp only [hroute] at h
      cases e with
      | dispatch request =>
          simp only [Option.some.injEq, Prod.mk.injEq] at h
          obtain ⟨rfl, rfl⟩ := h
          exact dispatch_settles f now id request
      | drive pair body =>
          simp only [Option.some.injEq, Prod.mk.injEq] at h
          obtain ⟨rfl, rfl⟩ := h
          exact drive_settles f now id pair body
      | _ => simp at h

/-- An event that concerns no request changes nothing. -/
theorem step_of_concern?_eq_none {id : Nat} {e : RouteEvent} (h : f.concern? id e = none) :
    f.step now id e = (f, .nothing) := by
  unfold concern? at h
  unfold step
  cases hroute : f.route? id with
  | some r => simp [hroute] at h
  | none =>
      simp only [hroute] at h
      cases e <;> simp at h ⊢

namespace Settles

variable {purpose : Purpose} {now : Nat} {g : Fleet} {out : Fleet × Progress}

/-- Settling leaves the other requests alone. -/
theorem routes_eq (h : Settles purpose now g out) : out.1.routes = g.routes := by
  obtain ⟨f, p⟩ := out
  cases p <;> simp_all [Settles]

/-- Settling charges the outcome of a request that is over. -/
theorem rotation_of_ended (h : Settles purpose now g out)
    {result : Except RoutingError InferenceAnswer} (hp : out.2 = .ended result) :
    out.1.rotation = purpose.charge now result g.rotation := by
  obtain ⟨f, p⟩ := out
  subst hp
  have hf : f = { g with rotation := purpose.charge now result g.rotation } := h
  exact congrArg Fleet.rotation hf

/-- A rotation that settling has changed was charged the outcome of a request that is over. -/
theorem ended_of_rotation_ne (h : Settles purpose now g out)
    (hne : out.1.rotation ≠ g.rotation) : ∃ result, out.2 = .ended result := by
  obtain ⟨f, p⟩ := out
  cases p with
  | ended result => exact ⟨result, rfl⟩
  | _ => exact absurd (congrArg Fleet.rotation h) hne

/-- Settling keeps the slots and a well formed rotation. -/
theorem keeps_rotation (h : Settles purpose now g out) (hw : g.rotation.WellFormed) :
    out.1.rotation.slots = g.rotation.slots ∧ out.1.rotation.WellFormed := by
  by_cases hne : out.1.rotation = g.rotation
  · rw [hne]
    exact ⟨rfl, hw⟩
  · obtain ⟨result, hp⟩ := h.ended_of_rotation_ne hne
    rw [h.rotation_of_ended hp]
    exact ⟨Purpose.slots_charge now result purpose, Purpose.wellFormed_charge now result hw purpose⟩

end Settles

/-- A call that is made for a plan carries the plan's credential. -/
def Carries (plan : Plan) : Attempt → Prop
  | .calling call => Http.Endpoint.authorization plan.secret = .ok call.request.authorization
  | _ => True

/-- A chat call carries the credential it was made with. -/
theorem authorization_of_chat {endpoint : Http.Endpoint} {secret : Option Secret} {body : Json}
    {read : Http.TargetReader} {call : Http.Call} (h : endpoint.chat secret body read = .ok call) :
    Http.Endpoint.authorization secret = .ok call.request.authorization := by
  unfold Http.Endpoint.chat at h
  split at h
  · cases h
  · rename_i header hheader
    unfold Http.Endpoint.request at h
    cases ht : read endpoint.chatUrl with
    | none => simp [ht] at h
    | some target =>
        simp only [ht, Except.ok.injEq] at h
        rw [hheader, ← h]

/-- A call carries the credential of the request it is made for. -/
theorem makeCall_carries (r : Route) (endpoint : Http.Endpoint) :
    Carries r.plan (f.makeCall now r endpoint).2 := by
  unfold makeCall
  split
  · rename_i call hcall
    exact authorization_of_chat hcall
  · trivial

/-- The same, as long as no connection has to be opened any more. -/
theorem afterOpening_carries (r : Route) (o : PoolOutcome Http.Endpoint) :
    Carries r.plan (f.afterOpening now r o).2 := by
  cases o with
  | granted lease => exact makeCall_carries f now r lease.connection
  | _ => trivial

/-- The same, after any answer of the pool. -/
theorem afterPool_carries (r : Route) (o : PoolOutcome Http.Endpoint) :
    Carries r.plan (f.afterPool now r o).2 := by
  cases o with
  | «open» url =>
      exact afterOpening_carries
        (f.onPool now (.opened r.id (Http.Endpoint.connect f.http url))).1 now r _
  | _ => exact afterOpening_carries f now r _

/-- The same, for an attempt at a node. -/
theorem attempt_carries (id : Nat) (purpose : Purpose) (plan : Plan) (node : Cluster.Node)
    (rest : List Cluster.Node) :
    Carries plan (f.attempt now id purpose plan node rest).2 := by
  unfold attempt
  dsimp only
  split
  · trivial
  · rename_i registry ticket _
    let r : Route := { id, purpose, plan, node, rest, ticket }
    exact afterPool_carries
      ({ f with registry }.onPool now (.acquire id (some node.baseUrl))).1 now r _

/-- The same, for the rest of the nodes. -/
theorem proceed_carries (id : Nat) (purpose : Purpose) (plan : Plan) (rest : List Cluster.Node)
    (node : Cluster.Node) {a : Attempt} (ha : Carries plan a) {call : Http.Call}
    (h : (proceed now id purpose plan rest node f a).2 = .calling call) :
    Http.Endpoint.authorization plan.secret = .ok call.request.authorization := by
  induction rest generalizing f node a with
  | nil =>
      cases a with
      | queued => cases h
      | calling made =>
          have hcall : made = call := Progress.calling.inj h
          exact hcall ▸ ha
      | finished result => cases result <;> cases h
  | cons next rest ih =>
      cases a with
      | queued => cases h
      | calling made =>
          have hcall : made = call := Progress.calling.inj h
          exact hcall ▸ ha
      | finished result =>
          cases result with
          | ok value => cases h
          | error e =>
              by_cases he : e.countsAsEndpointFailure = true
              · simp only [proceed, he, if_true] at h
                cases h
              · simp only [proceed, he, Bool.false_eq_true, if_false] at h
                exact ih _ next (attempt_carries f now id purpose plan next rest) h

/-- Every call carries the credential in the plan of the request that the event concerns. -/
theorem step_carries {id : Nat} {e : RouteEvent} {call : Http.Call}
    (h : (f.step now id e).2 = .calling call) :
    ∃ purpose plan, f.concern? id e = some (purpose, plan) ∧
      Http.Endpoint.authorization plan.secret = .ok call.request.authorization := by
  unfold concern?
  unfold step at h
  cases hroute : f.route? id with
  | some r =>
      simp only [hroute] at h ⊢
      refine ⟨r.purpose, r.plan, rfl, ?_⟩
      have hpool (pe : PoolEvent Http.Endpoint) (hp : (f.poolEvent now r pe).2 = .calling call) :
          Http.Endpoint.authorization r.plan.secret = .ok call.request.authorization :=
        proceed_carries _ now r.id r.purpose r.plan r.rest r.node
          (afterPool_carries (f.onPool now pe).1 now r _) hp
      cases e with
      | dispatch request => cases h
      | drive pair body => cases h
      | collect => exact hpool _ h
      | expire => exact hpool _ h
      | answered result =>
          simp only [stepRoute] at h
          split at h
          · exact proceed_carries _ now r.id r.purpose r.plan r.rest r.node
              (a := (f.finishCall now r result).2) trivial h
          · cases h
      | drop => cases h
  | none =>
      simp only [hroute] at h ⊢
      cases e with
      | dispatch request =>
          refine ⟨_, _, rfl, ?_⟩
          simp only [dispatch] at h
          split at h
          · cases h
          · cases h
          · rename_i node rest _ _
            exact proceed_carries _ now id .active _ rest node
              (attempt_carries f now id .active _ node rest) h
      | drive pair body =>
          refine ⟨_, _, rfl, ?_⟩
          simp only [drive] at h
          split at h
          · cases h
          · rename_i node rest _
            exact proceed_carries _ now id (.slot pair.index) (drivePlan pair body) rest node
              (attempt_carries f now id _ _ node rest) h
      | _ => cases h

variable {f now}

/-- The request that an event concerns carries the credential it captured. -/
theorem Sound.captured (h : f.Sound) {id : Nat} {e : RouteEvent} {purpose : Purpose}
    {plan : Plan} (hc : f.concern? id e = some (purpose, plan)) :
    Captured f.rotation.slots purpose plan := by
  unfold concern? at hc
  cases hroute : f.route? id with
  | some r =>
      simp only [hroute, Option.some.injEq, Prod.mk.injEq] at hc
      obtain ⟨rfl, rfl⟩ := hc
      exact h.routes r (List.mem_of_find?_eq_some hroute)
  | none =>
      simp only [hroute] at hc
      cases e with
      | dispatch request =>
          simp only [Option.some.injEq, Prod.mk.injEq] at hc
          obtain ⟨rfl, rfl⟩ := hc
          by_cases hs : f.rotation.slots = []
          · exact Or.inl ⟨hs, by simp [planFor, hs], by simp [planFor, Rotation.currentSecret?, hs]⟩
          · have hlt := h.rotation.active_lt hs
            have hget := List.getElem?_eq_getElem hlt
            exact Or.inr ⟨_, _, hget, by simp [planFor, hs],
              by simp [planFor, Rotation.currentSecret?, hget]⟩
      | drive pair body =>
          simp only [Option.some.injEq, Prod.mk.injEq] at hc
          obtain ⟨rfl, rfl⟩ := hc
          rfl
      | _ => simp at hc

/-- A step keeps the fleet sound. -/
theorem Sound.step (h : f.Sound) (now id : Nat) (e : RouteEvent) : (f.step now id e).1.Sound := by
  cases hc : f.concern? id e with
  | none =>
      rw [step_of_concern?_eq_none f now hc]
      exact h
  | some c =>
      obtain ⟨purpose, plan⟩ := c
      obtain ⟨g, hg, hs⟩ := step_settles f now hc
      have hw : g.rotation.WellFormed := hg.rotation ▸ h.rotation
      obtain ⟨hslots, hwell⟩ := hs.keeps_rotation hw
      refine ⟨hwell, fun r hr => ?_⟩
      rw [hslots, hg.rotation]
      rw [hs.routes_eq] at hr
      rcases hg.routes r hr with hold | ⟨hp, hplan⟩
      · exact h.routes r hold
      · rw [hp, hplan]
        exact h.captured hc

/-- A run keeps the fleet sound. -/
theorem Sound.run (h : f.Sound) (events : List (Nat × Nat × RouteEvent)) :
    (f.run events).Sound := by
  induction events generalizing f with
  | nil => exact h
  | cons e rest ih => exact ih (h.step e.1 e.2.1 e.2.2)

/-- The header that a call of a dispatched request carries is that of the slot it captured. -/
theorem Sound.authorization (h : f.Sound) {id : Nat} {e : RouteEvent} {plan : Plan}
    (hc : f.concern? id e = some (.active, plan)) {call : Http.Call}
    (hp : (f.step now id e).2 = .calling call) :
    call.request.authorization =
      (f.slotOf? id e).bind fun i => f.rotation.slots[i]?.map fun s => s.secret.bearer := by
  obtain ⟨purpose, plan', hc', hauth⟩ := step_carries f now hp
  rw [hc] at hc'
  obtain ⟨rfl, rfl⟩ : Purpose.active = purpose ∧ plan = plan' := by simpa using hc'
  have hslot : f.slotOf? id e = plan.slot := by simp [slotOf?, hc]
  rw [hslot]
  rcases h.captured hc with ⟨-, hnone, hsecret⟩ | ⟨i, s, hget, hsome, hsecret⟩
  · rw [hsecret] at hauth
    have hheader : call.request.authorization = none := (Except.ok.inj hauth).symm
    simp [hnone, hheader]
  · rw [hsecret] at hauth
    unfold Http.Endpoint.authorization at hauth
    split at hauth
    · rename_i hnone
      cases hnone
    · rename_i secret hsec
      obtain rfl : s.secret = secret := Option.some.inj hsec
      split at hauth
      · have hheader : some s.secret.bearer = call.request.authorization := Except.ok.inj hauth
        simp [hsome, hget, ← hheader]
      · cases hauth

/-- A misplaced outcome is that of a dispatched request whose slot is not the active one any more,
and leaves a mark there. -/
theorem Sound.ended_of_misplaces (h : f.Sound) {id : Nat} {e : RouteEvent}
    (hm : f.Misplaces now id e) :
    ∃ r result, f.route? id = some r ∧ r.purpose = .active ∧
      (f.step now id e).2 = .ended result ∧ f.rotation.slots ≠ [] ∧
      r.plan.slot ≠ some f.rotation.active ∧ Purpose.Marks f.rotation result := by
  obtain ⟨j, hchange, hslot⟩ := hm
  cases hc : f.concern? id e with
  | none => exact absurd (by rw [step_of_concern?_eq_none f now hc]) hchange
  | some c =>
      obtain ⟨purpose, plan⟩ := c
      obtain ⟨g, hg, hs⟩ := step_settles f now hc
      have hplan : plan.slot ≠ some j := by simpa [slotOf?, hc] using hslot
      obtain ⟨result, hend⟩ := hs.ended_of_rotation_ne fun heq => by
        rw [heq, hg.rotation] at hchange
        exact hchange rfl
      rw [hs.rotation_of_ended hend, hg.rotation] at hchange
      cases purpose with
      | slot i =>
          -- a driven slot is charged to the slot in its plan
          have hcaptured : plan.slot = some i := h.captured hc
          have hij : j ≠ i := fun hji => hplan (hji ▸ hcaptured)
          exact absurd (Purpose.record?_charge_slot_of_ne now result hij) hchange
      | active =>
          obtain ⟨rfl, hslots, hmark⟩ :=
            Purpose.eq_active_of_record?_charge_ne now result h.rotation hchange
          cases hroute : f.route? id with
          | some r =>
              simp only [concern?, hroute, Option.some.injEq, Prod.mk.injEq] at hc
              exact ⟨r, result, rfl, hc.1, hend, hslots, hc.2 ▸ hplan, hmark⟩
          | none =>
              -- a request that begins now captures the slot that is active now
              simp only [concern?, hroute] at hc
              cases e with
              | dispatch request =>
                  simp only [Option.some.injEq, Prod.mk.injEq] at hc
                  rw [← hc.2] at hplan
                  exact absurd (by simp [planFor, hslots]) hplan
              | _ => simp at hc

/-- The outcome of a dispatched request whose slot is not the active one any more is misplaced when
it leaves a mark there. -/
theorem Sound.misplaces_of_ended (h : f.Sound) {id : Nat} {e : RouteEvent} {r : Route}
    {result : Except RoutingError InferenceAnswer} (hroute : f.route? id = some r)
    (hpurpose : r.purpose = .active) (hend : (f.step now id e).2 = .ended result)
    (hslots : f.rotation.slots ≠ []) (hplan : r.plan.slot ≠ some f.rotation.active)
    (hmark : Purpose.Marks f.rotation result) : f.Misplaces now id e := by
  have hc : f.concern? id e = some (.active, r.plan) := by simp [concern?, hroute, hpurpose]
  obtain ⟨g, hg, hs⟩ := step_settles f now hc
  refine ⟨f.rotation.active, ?_, by simpa [slotOf?, hc] using hplan⟩
  rw [hs.rotation_of_ended hend, hg.rotation]
  exact (Purpose.record?_charge_active_ne_iff now result h.rotation hslots).mpr hmark

/-- **Where outcomes are charged.**  In every run, a call of a dispatched request carries the
credential of the slot the request captured; and a record of a slot that a request was not sent with
changes exactly when a dispatched request ends, its slot is not the active one any more, and its
outcome leaves a mark on the slot that is. -/
theorem run_misplaces_iff {f : Fleet} (hroutes : f.routes = []) (hrotation : f.rotation.WellFormed)
    (events : List (Nat × Nat × RouteEvent)) (now id : Nat) (e : RouteEvent) :
    (∀ plan call, (f.run events).concern? id e = some (.active, plan) →
      ((f.run events).step now id e).2 = .calling call →
      call.request.authorization = ((f.run events).slotOf? id e).bind fun i =>
        (f.run events).rotation.slots[i]?.map fun s => s.secret.bearer) ∧
    ((f.run events).Misplaces now id e ↔
      ∃ r result, (f.run events).route? id = some r ∧ r.purpose = .active ∧
        ((f.run events).step now id e).2 = .ended result ∧
        (f.run events).rotation.slots ≠ [] ∧
        r.plan.slot ≠ some (f.run events).rotation.active ∧
        Purpose.Marks (f.run events).rotation result) := by
  have hstart : f.Sound := ⟨hrotation, fun r hr => by simp [hroutes] at hr⟩
  have hsound := hstart.run events
  refine ⟨fun plan call hc hp => hsound.authorization hc hp, hsound.ended_of_misplaces, ?_⟩
  rintro ⟨r, result, hroute, hpurpose, hend, hslots, hplan, hmark⟩
  exact hsound.misplaces_of_ended hroute hpurpose hend hslots hplan hmark

/-- A fleet of one node with two credentials; the first is active, and the second has failed. -/
def twoCredentials : Fleet where
  tracker := {
    config := {}
    nodes := [{ Cluster.Node.new 0 "a:1" "a" 1 none with status := .online, models := ["m"] }] }
  registry := { config := {} }
  pool := { pool := { config := {} } }
  rotation := { Rotation.new [⟨⟨"sk-first"⟩, some "m", .config, 1⟩,
    ⟨⟨"sk-second"⟩, some "m", .config, 2⟩] {} with records := [none, some ⟨1, 0⟩] }

/-- Two requests are dispatched with the first credential, and the first of them is told to slow
down. -/
def overlapping : List (Nat × Nat × RouteEvent) :=
  [(0, 1, .dispatch ⟨none, .obj []⟩), (0, 2, .dispatch ⟨none, .obj []⟩),
   (1, 1, .answered (.error (.callFailed (some 429) "slow down")))]

/-- The success of the second request, sent with the first credential, clears the record of the
second credential. -/
theorem record?_overlapping :
    ((twoCredentials.run overlapping).step 2 2 (.answered (.ok .null))).1.rotation.record? 1 ≠
        (twoCredentials.run overlapping).rotation.record? 1 ∧
      (twoCredentials.run overlapping).slotOf? 2 (.answered (.ok .null)) = some 0 := by
  decide +kernel

/-- Overlapping requests can misplace an outcome. -/
theorem overlapping_misplaces :
    (twoCredentials.run overlapping).Misplaces 2 2 (.answered (.ok .null)) := by
  obtain ⟨hrecord, hslot⟩ := record?_overlapping
  exact ⟨1, hrecord, by simp [hslot]⟩

/-- The misplaced success of overlapping requests is one of a slot that is not active any more. -/
theorem run_misplaces_overlapping :
    twoCredentials.routes = [] ∧ twoCredentials.rotation.WellFormed ∧
      ∃ r result, (twoCredentials.run overlapping).route? 2 = some r ∧ r.purpose = .active ∧
        ((twoCredentials.run overlapping).step 2 2 (.answered (.ok .null))).2 = .ended result ∧
        (twoCredentials.run overlapping).rotation.slots ≠ [] ∧
        r.plan.slot ≠ some (twoCredentials.run overlapping).rotation.active ∧
        Purpose.Marks (twoCredentials.run overlapping).rotation result := by
  obtain ⟨hrecord, hslot⟩ := record?_overlapping
  have hwell : twoCredentials.rotation.WellFormed := ⟨rfl, fun _ => by decide⟩
  exact ⟨rfl, hwell, (run_misplaces_iff rfl hwell overlapping 2 2 _).2.mp
    ⟨1, hrecord, by simp [hslot]⟩⟩

end Fleet

end InferenceRouting
