import Mathlib
import InferenceRouting.Proofs.Cluster.Candidates
import InferenceRouting.Proofs.Fleet.Attempts

/-!
# The course of a request

A request begins, and from then on it is collected, told that its time is over, answered or given
up, while anything may happen to the other requests and to the parts of the fleet in between
(`Course`).  Its `Account` is what can be told of it: the nodes it visited with what it met there,
the calls it sent, and its result once it is over.

`Stands` says where a request stands at every moment.  While it waits, all nodes it has visited have
refused it.  While its call is under way, that call is what it met last.  When it is over, its
result is that of the last visit (`Ends`).  So no request is ever sent twice:
`course_visits_in_order` is the law for all courses.
-/

namespace InferenceRouting

open Cluster (Node)
open Http (Call Endpoint)

/-- A node at which a request was tried, and what it met there. -/
structure Visit where
  node : Node
  met : Encounter

/-- What can be told of a request; the time is that of the last event that concerned it. -/
structure Account where
  visits : List Visit
  calls : List Call
  result : Option (Except RoutingError InferenceAnswer)
  time : Nat

/-- The account with what came after it. -/
def Account.add (a b : Account) : Account :=
  { b with visits := a.visits ++ b.visits, calls := a.calls ++ b.calls }

/-- The visit to a node, once it is known what came of it. -/
def Node.visit (node : Node) (met : Option Encounter) : List Visit :=
  (met.map (Visit.mk node)).toList

/-- The call that has to be made. -/
def Progress.call? : Progress → Option Call
  | .calling call => some call
  | _ => none

/-- The result of a request that is over. -/
def Progress.result? : Progress → Option (Except RoutingError InferenceAnswer)
  | .ended result => some result
  | _ => none

/-- Whether the request moves on to the next node. -/
def Attempt.movesOn : Attempt → Bool
  | .finished (.error e) => !e.countsAsEndpointFailure
  | _ => false

/-- Only an error that does not count takes a request on. -/
theorem Attempt.exists_of_movesOn {step : Attempt} (h : step.movesOn = true) :
    ∃ e, step = .finished (.error e) ∧ e.countsAsEndpointFailure = false := by
  unfold Attempt.movesOn at h
  split at h
  · exact ⟨_, rfl, by simpa using h⟩
  · cases h

/-- Whether an event may follow the beginning of a request; a call has a result of a chat call. -/
def RouteEvent.Follows : RouteEvent → Prop
  | .dispatch _ | .drive .. => False
  | .answered result => IsChatResult result
  | _ => True

/-- The account of a request that is tried at these candidates for a model is in order. -/
structure Account.Orderly (candidates : List Node) (model : String) (a : Account) : Prop where
  /-- The candidates are visited in their order, and none is left out. -/
  inOrder : a.visits.map (·.node) <+: candidates
  /-- Wherever the request went on from, it had been rejected before a call was attempted. -/
  rejected : ∀ v ∈ a.visits.dropLast, ∃ e, v.met = .refused e ∧ e.isRejection = true
  /-- One call is made at most. -/
  once : a.visits.countP (fun v => v.met = .called) ≤ 1
  /-- Nothing is sent but by a call. -/
  sent : a.calls.length ≤ a.visits.countP fun v => v.met = .called
  /-- An answer is that of the call. -/
  answered : ∀ answer, a.result = some (.ok answer) →
    ∃ node, a.visits.getLast? = some ⟨node, .called⟩ ∧ answer.nodeId = node.id
  /-- An endpoint failure is that of the last visit. -/
  failed : ∀ e, a.result = some (.error e) → e.countsAsEndpointFailure = true →
    ∃ v, a.visits.getLast? = some v ∧ (v.met = .called ∨ v.met = .refused e)
  /-- Any other error is the rejection by the last candidate, unless there was nothing to visit. -/
  exhausted : ∀ e, a.result = some (.error e) → e.countsAsEndpointFailure = false →
    (e.isRejection = true ∧ a.visits.map (·.node) = candidates ∧
        ∃ node, a.visits.getLast? = some ⟨node, .refused e⟩) ∨
      (a.visits = [] ∧ ((candidates = [] ∧ e = .noCapacity model) ∨
        (candidates ≠ [] ∧ ∃ t, e = .allCredentialsCooling t)))
  /-- A refusal that counts, or that of the last candidate, ends the request. -/
  stops : ∀ node e, a.visits.getLast? = some ⟨node, .refused e⟩ →
    e.countsAsEndpointFailure = true ∨ a.visits.map (·.node) = candidates →
      a.result = some (.error e)

namespace Fleet

/-- The visits of a request that is tried at these nodes one after the other. -/
def visitsOn (now id : Nat) (purpose : Purpose) (plan : Plan) : List Node → Fleet → List Visit
  | [], _ => []
  | node :: rest, f =>
    let (g, a) := f.attempt now id purpose plan node rest
    Node.visit node (f.encounter? now id node) ++
      if a.movesOn then visitsOn now id purpose plan rest g else []

/-- The visits of a request after an attempt. -/
def visitsAfter (now : Nat) (r : Route) (f : Fleet) (a : Attempt) : List Visit :=
  if a.movesOn then visitsOn now r.id r.purpose r.plan r.rest f else []

/-- The visits that come of an event of the pool that concerns a request. -/
def poolVisits (f : Fleet) (now : Nat) (r : Route) (e : PoolEvent Endpoint) : List Visit :=
  let (g, a) := (f.onPool now e).1.afterPool now r (f.onPool now e).2
  Node.visit r.node (f.poolReply now r.id e).2.encounter? ++ visitsAfter now r g a

/-- The nodes at which a request is tried that begins now: none if it is refused at once. -/
def targets (f : Fleet) (now : Nat) : RouteEvent → List Node
  | .dispatch request =>
    match f.rotation.ensureAvailable now with
    | .ok () => f.tracker.candidates (request.model.getD f.rotation.currentModel)
    | .error _ => []
  | .drive pair _ => f.tracker.candidates pair.model
  | _ => []

/-- The visits of a request that come of an event. -/
def visits (f : Fleet) (now id : Nat) (e : RouteEvent) : List Visit :=
  match f.route? id with
  | some r =>
    match e with
    | .collect => f.poolVisits now r (.collect r.id)
    | .expire => f.poolVisits now r (.expire r.id)
    | .answered result =>
      if (f.pool.lease? r.id).isSome then
        let (g, a) := f.finishCall now r result
        visitsAfter now r g a
      else []
    | _ => []
  | none =>
    match f.concern? id e with
    | some (purpose, plan) => visitsOn now id purpose plan (f.targets now e) f
    | none => []

/-- What an event adds to the account of a request. -/
def account (f : Fleet) (now id : Nat) (e : RouteEvent) : Account where
  visits := f.visits now id e
  calls := (f.step now id e).2.call?.toList
  result := (f.step now id e).2.result?
  time := now

/-- What may happen elsewhere while a request is under way: events of other requests and of other
callers of the pool, and any change of what is known of nodes, breakers and credentials. -/
inductive Elsewhere (id : Nat) : Fleet → Fleet → Prop
  | step {f : Fleet} (now : Nat) {other : Nat} (h : id ≠ other) (e : RouteEvent) :
      Elsewhere id f (f.step now other e).1
  | onPool {f : Fleet} (now : Nat) {e : PoolEvent Endpoint} (h : e.caller? ≠ some id) :
      Elsewhere id f (f.onPool now e).1
  | change {f : Fleet} (http : Http.HttpConfig) (tracker : Cluster.Tracker) (registry : Registry)
      (rotation : Credential.Rotation) : Elsewhere id f { f with http, tracker, registry, rotation }

/-- The course of a request that began with an event, until it is over, with its account. -/
inductive Course (id : Nat) (others : Fleet → Fleet → Prop) (f₀ : Fleet) (t₀ : Nat)
    (start : RouteEvent) : Account → Fleet → Prop
  | begun : Course id others f₀ t₀ start (f₀.account t₀ id start) (f₀.step t₀ id start).1
  | meanwhile {a : Account} {f g : Fleet} (h : Course id others f₀ t₀ start a f)
      (hopen : a.result = none) (ho : others f g) : Course id others f₀ t₀ start a g
  | goesOn {a : Account} {f : Fleet} (h : Course id others f₀ t₀ start a f)
      (hopen : a.result = none) (now : Nat) {e : RouteEvent} (he : e.Follows) :
      Course id others f₀ t₀ start (a.add (f.account now id e)) (f.step now id e).1

/-- With fewer things going on elsewhere there are fewer courses. -/
theorem Course.mono {id : Nat} {others others' : Fleet → Fleet → Prop} {f₀ f : Fleet} {t₀ : Nat}
    {start : RouteEvent} {a : Account} (h : Course id others f₀ t₀ start a f)
    (hothers : ∀ f g, others f g → others' f g) : Course id others' f₀ t₀ start a f := by
  induction h with
  | begun => exact .begun
  | meanwhile _ hopen ho ih => exact .meanwhile ih hopen (hothers _ _ ho)
  | goesOn _ hopen now he ih => exact .goesOn ih hopen now he

/-- A request that is tried at these candidates has come to a node: all before it have refused. -/
structure Reaches (candidates : List Node) (visits : List Visit) (node : Node) (rest : List Node) :
    Prop where
  nodes : candidates = visits.map (·.node) ++ node :: rest
  refused : ∀ v ∈ visits, v.met.isRejection = true

/-- How a request ends that is tried at these candidates. -/
inductive Ends (candidates : List Node) (model : String) :
    List Visit → Except RoutingError InferenceAnswer → Prop
  | answered {visits : List Visit} {node : Node} {rest : List Node} {answer : InferenceAnswer}
      (h : Reaches candidates visits node rest) (hid : answer.nodeId = node.id) :
      Ends candidates model (visits ++ [⟨node, .called⟩]) (.ok answer)
  | failed {visits : List Visit} {node : Node} {rest : List Node} {met : Encounter}
      {e : RoutingError} (h : Reaches candidates visits node rest)
      (he : e.countsAsEndpointFailure = true) (hmet : met = .called ∨ met = .refused e) :
      Ends candidates model (visits ++ [⟨node, met⟩]) (.error e)
  | exhausted {visits : List Visit} {node : Node} {e : RoutingError}
      (h : Reaches candidates visits node []) (he : e.isRejection = true) :
      Ends candidates model (visits ++ [⟨node, .refused e⟩]) (.error e)
  | noCapacity (h : candidates = []) : Ends candidates model [] (.error (.noCapacity model))
  | cooling (h : candidates ≠ []) (t : Nat) :
      Ends candidates model [] (.error (.allCredentialsCooling t))

/-- Where a request stands that is tried at these candidates. -/
inductive Stands (candidates : List Node) (model : String) (id : Nat) : Account → Fleet → Prop
  | waits {visits : List Visit} {t : Nat} {f : Fleet} {r : Route} (hroute : f.route? id = some r)
      (hlease : f.pool.lease? id = none) (h : Reaches candidates visits r.node r.rest) :
      Stands candidates model id ⟨visits, [], none, t⟩ f
  | calls {visits : List Visit} {t : Nat} {f : Fleet} {r : Route} {call : Call}
      (hroute : f.route? id = some r) (hidle : f.pool.acquisition? id = none)
      (hlease : (f.pool.lease? id).isSome) (h : Reaches candidates visits r.node r.rest) :
      Stands candidates model id ⟨visits ++ [⟨r.node, .called⟩], [call], none, t⟩ f
  | givenUp {a : Account} {t : Nat} {f g : Fleet} (h : Stands candidates model id a f)
      (hopen : a.result = none) (habsent : g.Absent id) :
      Stands candidates model id { a with time := t } g
  | ended {visits : List Visit} {t : Nat} {calls : List Call} {f : Fleet}
      {result : Except RoutingError InferenceAnswer} (habsent : f.Absent id)
      (hcalls : calls.length ≤ visits.countP fun v => v.met = .called)
      (h : Ends candidates model visits result) :
      Stands candidates model id ⟨visits, calls, some result, t⟩ f

variable {f g : Fleet} {now id : Nat} {node : Node} {rest candidates : List Node} {model : String}
  {visits : List Visit} {a : Account} {r : Route} {e : RouteEvent} {purpose : Purpose} {plan : Plan}
  {met : Option Encounter}

theorem Spares.absent (h : f.Spares g id) (habsent : f.Absent id) : g.Absent id :=
  ⟨h.route.trans habsent.route, h.pool.lease.trans habsent.lease⟩

/-- What happens elsewhere leaves the request where it is. -/
theorem Elsewhere.spares (h : Elsewhere id f g) : f.Spares g id := by
  cases h with
  | step now hid e => exact .step f now hid e
  | onPool now he => exact .onPool f now he
  | change http tracker registry rotation => exact .same rfl rfl

/-- A refusal takes the request to the next node. -/
theorem Reaches.next {next : Node} {e : RoutingError}
    (h : Reaches candidates visits node (next :: rest)) (he : e.isRejection = true) :
    Reaches candidates (visits ++ [⟨node, .refused e⟩]) next rest where
  nodes := by simp [h.nodes]
  refused v hv := by
    rcases List.mem_append.mp hv with hv | hv
    · exact h.refused v hv
    · obtain rfl := List.mem_singleton.mp hv
      exact he

theorem Stands.spares (h : Stands candidates model id a f) (hs : f.Spares g id) :
    Stands candidates model id a g := by
  cases h with
  | waits hroute hlease h =>
      exact .waits (hs.route.trans hroute) (hs.pool.lease.trans hlease) h
  | calls hroute hidle hlease h =>
      exact .calls (hs.route.trans hroute) (hs.pool.acquisition.trans hidle)
        (hs.pool.lease ▸ hlease) h
  | givenUp h hopen habsent => exact .givenUp h hopen (hs.absent habsent)
  | ended habsent hcalls h => exact .ended (hs.absent habsent) hcalls h

/-- The visits go on from the next node if it rejects the request. -/
theorem visitsOn_cons (now id : Nat) (purpose : Purpose) (plan : Plan) (node : Node)
    (rest : List Node) (f : Fleet) :
    visitsOn now id purpose plan (node :: rest) f =
      Node.visit node (f.encounter? now id node) ++
        if (f.attempt now id purpose plan node rest).2.movesOn then
          visitsOn now id purpose plan rest (f.attempt now id purpose plan node rest).1
        else [] :=
  rfl

/-- Only a rejection takes a request on. -/
theorem Attempted.of_movesOn {step : Attempt} (h : Attempted id node rest met (f, step))
    (hmoves : step.movesOn = true) :
    ∃ e, step = .finished (.error e) ∧ met = some (.refused e) ∧ e.isRejection = true ∧
      f.Absent id := by
  cases h with
  | waits => cases hmoves
  | calls => cases hmoves
  | refused habsent he =>
      have hneutral := hmoves
      simp only [Attempt.movesOn, Bool.not_eq_true'] at hneutral
      exact ⟨_, rfl, rfl, he.resolve_right (by simp [hneutral]), habsent⟩
  | unsendable habsent he => simp [Attempt.movesOn, he] at hmoves

/-- A request that stays at a node stands there, or is over. -/
theorem proceed_stands_of_stays (now : Nat) (purpose : Purpose) {step : Attempt}
    (hreach : Reaches candidates visits node rest) (h : Attempted id node rest met (f, step))
    (hstays : step.movesOn = false) :
    Stands candidates model id
      ⟨visits ++ Node.visit node met,
        (proceed now id purpose plan rest node f step).2.call?.toList,
        (proceed now id purpose plan rest node f step).2.result?, now⟩
      (proceed now id purpose plan rest node f step).1 := by
  cases h with
  | waits hroute hnode hrest hlease =>
      rw [proceed_queued, Node.visit, Option.map_none, Option.toList_none, List.append_nil]
      exact .waits hroute hlease (hnode ▸ hrest ▸ hreach)
  | @calls _ r call hroute hnode hrest hidle hlease =>
      rw [proceed_calling]
      subst hnode hrest
      exact .calls hroute hidle hlease hreach
  | @refused _ e habsent he =>
      have hcounts : e.countsAsEndpointFailure = true := by simpa [Attempt.movesOn] using hstays
      rw [proceed_of_counts hcounts]
      exact .ended ⟨habsent.route, habsent.lease⟩ (Nat.zero_le _)
        (.failed hreach hcounts (.inr rfl))
  | @unsendable _ e habsent he =>
      rw [proceed_of_counts he]
      exact .ended ⟨habsent.route, habsent.lease⟩ (Nat.zero_le _) (.failed hreach he (.inl rfl))

/-- **Going on.**  From its turn at a node that it has reached, a request goes on to where it stands
then. -/
theorem proceed_stands (now : Nat) (purpose : Purpose) (plan : Plan) {step : Attempt}
    (hreach : Reaches candidates visits node rest) (h : Attempted id node rest met (f, step)) :
    Stands candidates model id
      ⟨visits ++ (Node.visit node met ++
          if step.movesOn then visitsOn now id purpose plan rest f else []),
        (proceed now id purpose plan rest node f step).2.call?.toList,
        (proceed now id purpose plan rest node f step).2.result?, now⟩
      (proceed now id purpose plan rest node f step).1 := by
  induction rest generalizing visits node met f step with
  | nil =>
      cases hmoves : step.movesOn with
      | false =>
          simp only [Bool.false_eq_true, if_false, List.append_nil]
          exact proceed_stands_of_stays now purpose hreach h hmoves
      | true =>
          obtain ⟨e, rfl, rfl, he, habsent⟩ := h.of_movesOn hmoves
          simp only [visitsOn, if_true, List.append_nil]
          exact .ended ⟨habsent.route, habsent.lease⟩ (Nat.zero_le _) (.exhausted hreach he)
  | cons next rest ih =>
      cases hmoves : step.movesOn with
      | false =>
          simp only [Bool.false_eq_true, if_false, List.append_nil]
          exact proceed_stands_of_stays now purpose hreach h hmoves
      | true =>
          obtain ⟨e, rfl, rfl, he, habsent⟩ := h.of_movesOn hmoves
          have htried := attempt_attempted habsent now purpose plan next rest
          rw [proceed_next (RoutingError.not_counts_of_isRejection he), if_pos rfl, visitsOn_cons,
            ← List.append_assoc]
          exact ih (hreach.next he) htried

/-- A request that begins is refused at once, or tried at the candidates. -/
theorem step_cases_of_start (hroute : f.route? id = none)
    (hc : f.concern? id e = some (purpose, plan)) (now : Nat) :
    (f.targets now e = [] ∧
      ((f.tracker.candidates plan.model = [] ∧
          f.step now id e = (f, .ended (.error (.noCapacity plan.model)))) ∨
        (f.tracker.candidates plan.model ≠ [] ∧
          ∃ t, f.step now id e = (f, .ended (.error (.allCredentialsCooling t)))))) ∨
    ∃ node rest, f.targets now e = node :: rest ∧
      f.tracker.candidates plan.model = node :: rest ∧
      f.step now id e = f.begin now id purpose plan node rest := by
  unfold concern? at hc
  unfold Fleet.step
  simp only [hroute] at hc ⊢
  cases e with
  | dispatch request =>
      obtain ⟨rfl, rfl⟩ : Purpose.active = purpose ∧
          f.planFor (request.model.getD f.rotation.currentModel) request = plan := by
        simpa using hc
      simp only [dispatch, targets, planFor]
      cases hcandidates :
          f.tracker.candidates (request.model.getD f.rotation.currentModel) with
      | nil => exact .inl ⟨by split <;> rfl, .inl ⟨rfl, rfl⟩⟩
      | cons node rest =>
          cases havailable : f.rotation.ensureAvailable now with
          | ok done => exact .inr ⟨node, rest, rfl, rfl, rfl⟩
          | error err =>
              obtain ⟨t, rfl⟩ : ∃ t, err = .allCredentialsCooling t := by
                unfold Credential.Rotation.ensureAvailable at havailable
                split at havailable <;> cases havailable
                exact ⟨_, rfl⟩
              exact .inl ⟨rfl, .inr ⟨by simp, t, rfl⟩⟩
  | drive pair body =>
      obtain ⟨rfl, rfl⟩ : Purpose.slot pair.index = purpose ∧ drivePlan pair body = plan := by
        simpa using hc
      simp only [drive, targets, drivePlan]
      cases hcandidates : f.tracker.candidates pair.model with
      | nil => exact .inl ⟨rfl, .inl ⟨rfl, rfl⟩⟩
      | cons node rest => exact .inr ⟨node, rest, rfl, rfl, rfl⟩
  | _ => simp at hc

/-- The visits of a request that begins. -/
theorem visits_of_start (hroute : f.route? id = none) (hc : f.concern? id e = some (purpose, plan))
    (now : Nat) : f.visits now id e = visitsOn now id purpose plan (f.targets now e) f := by
  unfold Fleet.visits
  simp only [hroute, hc]

/-- **Beginning.**  A request of which nothing was under way stands where its candidates put it. -/
theorem start_stands (habsent : f.Absent id) (hc : f.concern? id e = some (purpose, plan))
    (now : Nat) :
    Stands (f.tracker.candidates plan.model) plan.model id (f.account now id e)
      (f.step now id e).1 := by
  unfold account
  rw [visits_of_start habsent.route hc]
  rcases step_cases_of_start habsent.route hc now with
    ⟨htargets, ⟨hnone, hstep⟩ | ⟨hsome, t, hstep⟩⟩ | ⟨node, rest, htargets, hcandidates, hstep⟩
  · rw [htargets, hstep, hnone]
    exact .ended habsent (Nat.zero_le _) (.noCapacity rfl)
  · rw [htargets, hstep]
    exact .ended habsent (Nat.zero_le _) (.cooling hsome t)
  · rw [htargets, hstep, hcandidates]
    have hreach : Reaches (node :: rest) [] node rest := ⟨rfl, fun v hv => by cases hv⟩
    exact proceed_stands now purpose plan hreach
      (attempt_attempted habsent now purpose plan node rest)

/-- A request that waits goes on with the pool's answer. -/
theorem Stands.poolEvent {pe : PoolEvent Endpoint} (hlease : f.pool.lease? r.id = none)
    (hreach : Reaches candidates visits r.node r.rest)
    (hreplies : f.pool.Replies r.id (fun e => e.countsAsEndpointFailure = true)
      (f.pool.step now pe)) :
    Stands candidates model r.id
      ⟨visits ++ f.poolVisits now r pe, (f.poolEvent now r pe).2.call?.toList,
        (f.poolEvent now r pe).2.result?, now⟩ (f.poolEvent now r pe).1 := by
  exact proceed_stands now r.purpose r.plan hreach (afterPool_attempted hlease hreplies)

/-- A request that has nothing to expect from the pool stays where it is. -/
theorem poolEvent_of_nothing {pe : PoolEvent Endpoint}
    (hpool : f.pool.step now pe = (f.pool, .nothing)) :
    f.poolEvent now r pe = (f.keep r, .queued) ∧ f.poolVisits now r pe = [] := by
  have honPool : f.onPool now pe = (f, .nothing) := by simp only [onPool, hpool]
  have hwait : f.afterPool now r .nothing = (f.keep r, .queued) := rfl
  refine ⟨?_, ?_⟩
  · simp only [poolEvent, honPool, hwait, resume, proceed_queued]
  · simp [poolVisits, poolReply, honPool, hwait, visitsAfter, Node.visit, Attempt.movesOn,
      PoolOutcome.encounter?]

/-- A request whose call is under way waits on. -/
theorem Stands.stay {call : Call} {t : Nat} (hidle : f.pool.acquisition? r.id = none)
    (hlease : (f.pool.lease? r.id).isSome) (hreach : Reaches candidates visits r.node r.rest) :
    Stands candidates model r.id
      ⟨visits ++ [⟨r.node, .called⟩] ++ [], [call] ++ [], none, t⟩ (f.keep r) := by
  rw [List.append_nil, List.append_nil]
  exact .calls (f.route?_keep r) hidle hlease hreach

/-- A request whose call is over is over itself. -/
theorem Stands.answered {call : Call} {result : Except RoutingError Json}
    (hresult : IsChatResult result) (hreach : Reaches candidates visits r.node r.rest) :
    Stands candidates model r.id
      ⟨visits ++ [⟨r.node, .called⟩] ++
          visitsAfter now r (f.finishCall now r result).1 (f.finishCall now r result).2,
        [call] ++ (resume r now (f.finishCall now r result).1
          (f.finishCall now r result).2).2.call?.toList,
        (resume r now (f.finishCall now r result).1 (f.finishCall now r result).2).2.result?, now⟩
      (resume r now (f.finishCall now r result).1 (f.finishCall now r result).2).1 := by
  have habsent := Absent.finishCall f now r result
  have hone : [call].length ≤
      (visits ++ [(⟨r.node, .called⟩ : Visit)]).countP fun v => v.met = .called := by
    simp
  cases result with
  | ok value =>
      have hout : (f.finishCall now r (.ok value)).2 = .finished (.ok value) := rfl
      rw [hout, resume, proceed_ok]
      simp only [visitsAfter, Attempt.movesOn, Bool.false_eq_true, if_false, List.append_nil]
      exact .ended ⟨habsent.route, habsent.lease⟩ hone (.answered hreach rfl)
  | error err =>
      have hcounts := hresult.counts
      have hout : (f.finishCall now r (.error err)).2 = .finished (.error err) := rfl
      rw [hout, resume, proceed_of_counts hcounts]
      simp only [visitsAfter, Attempt.movesOn, hcounts, Bool.not_true, Bool.false_eq_true, if_false,
        List.append_nil]
      exact .ended ⟨habsent.route, habsent.lease⟩ hone (.failed hreach hcounts (.inl rfl))

/-- A request that is given up is not under way any more. -/
theorem Absent.giveUp (f : Fleet) (now : Nat) (r : Route) : (f.giveUp now r).Absent r.id := by
  refine ⟨route?_forget _ r.id, ?_⟩
  exact ((f.pool.release now r.id).lease?_abandon now r.id r.id).trans
    (f.pool.lease?_release now r.id)

/-- An event of a request that is not under way comes to nothing. -/
theorem account_of_route?_eq_none (hroute : f.route? id = none) (he : e.Follows) (now : Nat) :
    f.account now id e = ⟨[], [], none, now⟩ ∧ (f.step now id e).1 = f := by
  have hc : f.concern? id e = none := by
    unfold concern?
    rw [hroute]
    cases e with
    | dispatch request => exact he.elim
    | drive pair body => exact he.elim
    | _ => rfl
  have hvisits : f.visits now id e = [] := by
    unfold Fleet.visits
    simp only [hroute, hc]
  have hstep := step_of_concern?_eq_none f now hc
  unfold account
  rw [hvisits, hstep]
  exact ⟨rfl, rfl⟩

/-- What an event can do to a request that is under way. -/
inductive Moves (f : Fleet) (now : Nat) (r : Route) : List Visit → Fleet × Progress → Prop
  | collects :
      Moves f now r (f.poolVisits now r (.collect r.id)) (f.poolEvent now r (.collect r.id))
  | expires :
      Moves f now r (f.poolVisits now r (.expire r.id)) (f.poolEvent now r (.expire r.id))
  | answers {result : Except RoutingError Json} (hresult : IsChatResult result)
      (hlease : (f.pool.lease? r.id).isSome) :
      Moves f now r (visitsAfter now r (f.finishCall now r result).1 (f.finishCall now r result).2)
        (resume r now (f.finishCall now r result).1 (f.finishCall now r result).2)
  | stays (hlease : f.pool.lease? r.id = none) : Moves f now r [] (f, .nothing)
  | leaves : Moves f now r [] (f.giveUp now r, .nothing)

/-- **What an event can do.** -/
theorem step_moves (hroute : f.route? r.id = some r) (he : e.Follows) (now : Nat) :
    Moves f now r (f.visits now r.id e) (f.step now r.id e) := by
  have hstep : f.step now r.id e = f.stepRoute now r e := by simp only [Fleet.step, hroute]
  unfold Fleet.visits
  rw [hstep]
  simp only [hroute]
  cases e with
  | dispatch request => exact he.elim
  | drive pair body => exact he.elim
  | collect => exact .collects
  | expire => exact .expires
  | answered result =>
      cases hlease : f.pool.lease? r.id with
      | none =>
          simp only [stepRoute, hlease, Option.isSome_none, Bool.false_eq_true, if_false]
          exact .stays hlease
      | some lease =>
          have hheld : (f.pool.lease? r.id).isSome := by rw [hlease]; rfl
          simp only [stepRoute, hlease, Option.isSome_some, if_true]
          exact .answers he hheld
  | drop => exact .leaves

/-- **One event.**  Whatever may follow keeps the account in order. -/
theorem Stands.step (h : Stands candidates model id a f) (hopen : a.result = none)
    (he : e.Follows) (now : Nat) :
    Stands candidates model id (a.add (f.account now id e)) (f.step now id e).1 := by
  cases h with
  | @waits visits _ _ r hroute hlease hreach =>
      obtain rfl := id_of_route? hroute
      have hmoves := step_moves hroute he now
      unfold Account.add account
      generalize f.visits now r.id e = more at hmoves
      generalize f.step now r.id e = out at hmoves
      cases hmoves with
      | collects => exact .poolEvent hlease hreach (f.pool.collect_replies now r.id)
      | expires => exact .poolEvent hlease hreach (f.pool.expire_replies now r.id)
      | answers _ hheld =>
          rw [hlease] at hheld
          cases hheld
      | stays =>
          rw [List.append_nil]
          exact .waits hroute hlease hreach
      | leaves =>
          have hwaiting : Stands candidates model r.id ⟨visits ++ [], [], none, now⟩ f := by
            rw [List.append_nil]
            exact .waits hroute hlease hreach
          exact .givenUp hwaiting rfl (Absent.giveUp f now r)
  | @calls visits _ _ r call hroute hidle hlease hreach =>
      obtain rfl := id_of_route? hroute
      have hmoves := step_moves hroute he now
      have hidly : ∀ pe : PoolEvent Endpoint, f.pool.step now pe = (f.pool, .nothing) →
          Stands candidates model r.id
            ⟨visits ++ [⟨r.node, .called⟩] ++ f.poolVisits now r pe,
              [call] ++ (f.poolEvent now r pe).2.call?.toList, (f.poolEvent now r pe).2.result?,
              now⟩
            (f.poolEvent now r pe).1 := by
        intro pe hpe
        obtain ⟨hevent, hvisits⟩ := poolEvent_of_nothing (r := r) hpe
        rw [hevent, hvisits]
        exact .stay hidle hlease hreach
      unfold Account.add account
      generalize f.visits now r.id e = more at hmoves
      generalize f.step now r.id e = out at hmoves
      cases hmoves with
      | collects => exact hidly _ (PoolRun.collect_of_acquisition?_eq_none hidle now)
      | expires => exact hidly _ (PoolRun.expire_of_acquisition?_eq_none hidle now)
      | answers hresult => exact .answered hresult hreach
      | stays hnone =>
          rw [hnone] at hlease
          cases hlease
      | leaves =>
          have hcalling : Stands candidates model r.id
              ⟨visits ++ [⟨r.node, .called⟩] ++ [], [call] ++ [], none, now⟩ f := by
            rw [List.append_nil, List.append_nil]
            exact .calls hroute hidle hlease hreach
          exact .givenUp hcalling rfl (Absent.giveUp f now r)
  | @givenUp a t _ _ h hbefore habsent =>
      obtain ⟨haccount, hstep⟩ := account_of_route?_eq_none habsent.route he now
      have hsame : ({ a with time := t } : Account).add (f.account now id e) =
          { a with time := now } := by
        rw [haccount, Account.add, List.append_nil, List.append_nil, hbefore]
      rw [hsame, hstep]
      exact .givenUp h hbefore habsent
  | ended habsent hcalls h => cases hopen

/-- A request that has a connection was let in at the node it visited last. -/
theorem Stands.last_visit (h : Stands candidates model id a f) (hroute : f.route? id = some r)
    (hlease : (f.pool.lease? id).isSome) :
    ∃ before met, a.visits = before ++ [⟨r.node, met⟩] := by
  cases h with
  | waits _ hnone _ =>
      rw [hnone] at hlease
      cases hlease
  | calls hroute' _ _ _ =>
      obtain rfl := Option.some.inj (hroute.symm.trans hroute')
      exact ⟨_, _, rfl⟩
  | givenUp _ _ habsent => cases hroute.symm.trans habsent.route
  | ended habsent _ _ => cases hroute.symm.trans habsent.route

/-- **The course of a request.**  At every moment it stands where its candidates put it. -/
theorem course_stands {others : Fleet → Fleet → Prop} {f₀ : Fleet} {t₀ : Nat} {start : RouteEvent}
    (hothers : ∀ f g, others f g → f.Spares g id) (habsent : f₀.Absent id)
    (hstart : f₀.concern? id start = some (purpose, plan))
    (h : Course id others f₀ t₀ start a f) :
    Stands (f₀.tracker.candidates plan.model) plan.model id a f := by
  induction h with
  | begun => exact start_stands habsent hstart t₀
  | meanwhile _ _ ho ih => exact ih.spares (hothers _ _ ho)
  | goesOn _ hopen now he ih => exact ih.step hopen he now

namespace Reaches

variable {calls : List Call} {result : Option (Except RoutingError InferenceAnswer)} {t : Nat}

/-- Those that have been passed have rejected the request. -/
theorem rejected (h : Reaches candidates visits node rest) :
    ∀ v ∈ visits, ∃ e, v.met = .refused e ∧ e.isRejection = true := by
  intro v hv
  have hv := h.refused v hv
  cases hmet : v.met with
  | refused e =>
      rw [hmet] at hv
      exact ⟨e, rfl, hv⟩
  | called =>
      rw [hmet] at hv
      cases hv

/-- No call is made at those that have been passed. -/
theorem countP_called (h : Reaches candidates visits node rest) :
    visits.countP (fun v => v.met = .called) = 0 := by
  refine List.countP_eq_zero.mpr fun v hv hcalled => ?_
  obtain ⟨e, he, -⟩ := h.rejected v hv
  simp [he] at hcalled

/-- One call is made if the request has met one. -/
theorem countP_met (h : Reaches candidates visits node rest) (met : Encounter) :
    (visits ++ [(⟨node, met⟩ : Visit)]).countP (fun v => v.met = .called) =
      if met = .called then 1 else 0 := by
  rw [List.countP_append, h.countP_called]
  simp [List.countP_cons]

/-- A request that waits for a node it has reached is in order. -/
theorem orderly_of_waiting (h : Reaches candidates visits node rest) :
    (⟨visits, [], none, t⟩ : Account).Orderly candidates model where
  inOrder := by
    rw [h.nodes]
    exact List.prefix_append _ _
  rejected v hv := h.rejected v ((List.dropLast_sublist _).subset hv)
  once := h.countP_called ▸ Nat.zero_le 1
  sent := Nat.zero_le _
  answered answer hresult := by cases hresult
  failed e hresult := by cases hresult
  exhausted e hresult := by cases hresult
  stops n e hlast hstop := by
    obtain ⟨e', he', hrejection⟩ := h.rejected _ (List.mem_of_getLast? hlast)
    cases he'
    rcases hstop with hcounts | hall
    · rw [RoutingError.not_counts_of_isRejection hrejection] at hcounts
      cases hcounts
    · have hlength := congrArg List.length (hall.trans h.nodes)
      simp at hlength

/-- A request that has met something at a node it has reached is in order, if its result goes with
what it met. -/
theorem orderly_of_met {met : Encounter} (h : Reaches candidates visits node rest)
    (hcalls : calls.length ≤
      (visits ++ [(⟨node, met⟩ : Visit)]).countP fun v => v.met = .called)
    (hanswered : ∀ answer, result = some (.ok answer) → met = .called ∧ answer.nodeId = node.id)
    (hfailed : ∀ e, result = some (.error e) →
      (e.countsAsEndpointFailure = true ∧ (met = .called ∨ met = .refused e)) ∨
        (e.isRejection = true ∧ met = .refused e ∧ rest = []))
    (hstops : ∀ e, met = .refused e → e.countsAsEndpointFailure = true ∨ rest = [] →
      result = some (.error e)) :
    (⟨visits ++ [⟨node, met⟩], calls, result, t⟩ : Account).Orderly candidates model where
  inOrder := by
    refine ⟨rest, ?_⟩
    simp [h.nodes]
  rejected v hv := h.rejected v (by simpa using hv)
  once := by
    rw [h.countP_met]
    split <;> omega
  sent := hcalls
  answered answer hresult := by
    obtain ⟨hmet, hid⟩ := hanswered answer hresult
    exact ⟨node, by simp [hmet], hid⟩
  failed e hresult hcounts := by
    rcases hfailed e hresult with ⟨-, hmet⟩ | ⟨hrejection, -⟩
    · exact ⟨⟨node, met⟩, by simp, hmet⟩
    · rw [RoutingError.not_counts_of_isRejection hrejection] at hcounts
      cases hcounts
  exhausted e hresult hneutral := by
    rcases hfailed e hresult with ⟨hcounts, -⟩ | ⟨hrejection, hmet, hrest⟩
    · rw [hcounts] at hneutral
      cases hneutral
    · exact .inl ⟨hrejection, by simp [h.nodes, hrest], node, by simp [hmet]⟩
  stops n e hlast hstop := by
    obtain ⟨rfl, rfl⟩ : node = n ∧ met = .refused e := by simpa using hlast
    refine hstops e rfl (hstop.imp_right fun hall => ?_)
    simpa [h.nodes] using hall

end Reaches

/-- A request that is refused at once is in order. -/
theorem orderly_of_refused {calls : List Call} {e : RoutingError} {t : Nat}
    (hcalls : calls.length ≤ 0) (hneutral : e.countsAsEndpointFailure = false)
    (he : (candidates = [] ∧ e = .noCapacity model) ∨
      (candidates ≠ [] ∧ ∃ t, e = .allCredentialsCooling t)) :
    (⟨[], calls, some (.error e), t⟩ : Account).Orderly candidates model where
  inOrder := List.nil_prefix
  rejected v hv := by cases hv
  once := Nat.zero_le 1
  sent := hcalls
  answered answer hresult := by cases hresult
  failed e' hresult hcounts := by
    cases hresult
    rw [hneutral] at hcounts
    cases hcounts
  exhausted e' hresult _ := by
    cases hresult
    exact .inr ⟨rfl, he⟩
  stops node e' hlast := by cases hlast

/-- **Order.**  Wherever a request stands, its account is in order. -/
theorem Stands.orderly (h : Stands candidates model id a f) : a.Orderly candidates model := by
  induction h with
  | waits _ _ hreach => exact hreach.orderly_of_waiting
  | calls _ _ _ hreach =>
      exact hreach.orderly_of_met (by simp) (fun _ hresult => by cases hresult)
        (fun _ hresult => by cases hresult) (fun _ hmet => by cases hmet)
  | givenUp _ _ _ ih => exact { ih with }
  | ended _ hcalls hends =>
      cases hends with
      | answered hreach hid =>
          refine hreach.orderly_of_met hcalls (fun answer hresult => ?_)
            (fun _ hresult => by cases hresult) (fun _ hmet => by cases hmet)
          cases hresult
          exact ⟨rfl, hid⟩
      | failed hreach he hmet =>
          refine hreach.orderly_of_met hcalls (fun _ hresult => by cases hresult)
            (fun e hresult => ?_) (fun e hrefused _ => ?_)
          · cases hresult
            exact .inl ⟨he, hmet⟩
          · rcases hmet with rfl | rfl
            · cases hrefused
            · cases hrefused
              rfl
      | exhausted hreach he =>
          refine hreach.orderly_of_met hcalls (fun _ hresult => by cases hresult)
            (fun e hresult => ?_) (fun e hrefused _ => ?_)
          · cases hresult
            exact .inr ⟨he, rfl, rfl⟩
          · cases hrefused
            rfl
      | noCapacity hnone => exact orderly_of_refused hcalls rfl (.inl ⟨hnone, rfl⟩)
      | cooling hsome t => exact orderly_of_refused hcalls rfl (.inr ⟨hsome, t, rfl⟩)

/-- **A request is never sent twice.**  Whatever else happens in the fleet, a request is tried at
the candidates for its model in the order of their ranks, and the course of its visits is in order:
it goes on only when it has been rejected before a call was attempted, makes one call at most, and
ends with what it met last. -/
theorem course_visits_in_order {f₀ : Fleet} {t₀ : Nat} {start : RouteEvent}
    (habsent : f₀.Absent id) (hstart : f₀.concern? id start = some (purpose, plan))
    (h : Course id (Elsewhere id) f₀ t₀ start a f) :
    (f₀.tracker.candidates plan.model).Pairwise (fun m n => m.rank ≤ n.rank) ∧
      (∀ n, n ∈ f₀.tracker.candidates plan.model ↔
        n ∈ f₀.tracker.nodes ∧ n.isOnline = true ∧ n.serves plan.model = true) ∧
      a.Orderly (f₀.tracker.candidates plan.model) plan.model := by
  have hstands := course_stands (fun _ _ => Elsewhere.spares) habsent hstart h
  exact ⟨f₀.tracker.pairwise_candidates plan.model,
    fun _ => f₀.tracker.mem_candidates plan.model, hstands.orderly⟩

/-- Two nodes that have a model; the circuit of the nearer one is open. -/
def nearerOpen : Fleet where
  tracker := {
    config := {}
    nodes := [
      { Cluster.Node.new 0 "a:1" "a" 1 none with
        status := .online, models := ["m"], latencyMs := some 5 },
      { Cluster.Node.new 0 "b:1" "b" 1 none with status := .online, models := ["m"] }] }
  registry := {
    config := {}
    entries := [⟨0, true, 0, { Breaker.new "node:a:1" {} true with
      state := .open, openedAt := some 0 }⟩]
    nextId := 1 }
  pool := { pool := { config := {} } }
  rotation := Credential.Rotation.new [] {}

/-- A request for the model that both nodes have. -/
def askedForModel : RouteEvent :=
  .dispatch ⟨some "m", .obj []⟩

/-- An answer without content. -/
def emptyAnswer : RouteEvent :=
  .answered (Endpoint.readChat ⟨200, "null"⟩)

/-- A request that the nearer node rejects is sent to the other one, once, and answered there. -/
theorem course_visits_in_order_second_node :
    let a := (nearerOpen.account 1 1 askedForModel).add
      ((nearerOpen.step 1 1 askedForModel).1.account 2 1 emptyAnswer)
    a.visits.map (fun v => (v.node.id, v.met)) =
        [("a:1", .refused (.circuitOpen "node:a:1" 30000)), ("b:1", .called)] ∧
      a.calls.length = 1 ∧ a.result.isSome = true ∧
      a.Orderly (nearerOpen.tracker.candidates "m") "m" := by
  intro a
  have hrun : (a.visits.map fun v => (v.node.id, v.met), a.calls.length, a.result.isSome,
      (nearerOpen.account 1 1 askedForModel).result.isNone) =
      ([("a:1", .refused (.circuitOpen "node:a:1" 30000)), ("b:1", .called)], 1, true, true) := by
    cbv
  simp only [Prod.mk.injEq] at hrun
  obtain ⟨hvisits, hcalls, hresult, hnone⟩ := hrun
  have hstart : nearerOpen.concern? 1 askedForModel =
      some (.active, nearerOpen.planFor "m" ⟨some "m", .obj []⟩) := rfl
  have hopen : (nearerOpen.account 1 1 askedForModel).result = none :=
    Option.isNone_iff_eq_none.mp hnone
  have hfollows : emptyAnswer.Follows := Or.inl ⟨_, rfl⟩
  exact ⟨hvisits, hcalls, hresult,
    (course_visits_in_order ⟨rfl, rfl⟩ hstart (.goesOn .begun hopen 2 hfollows)).2.2⟩

end Fleet

end InferenceRouting
