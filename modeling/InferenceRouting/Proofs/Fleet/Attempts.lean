import InferenceRouting.Proofs.Breaker.Entries
import InferenceRouting.Proofs.Fleet.Charge
import InferenceRouting.Proofs.Pool.Standing

/-!
# One attempt at a node

An attempt has two parts.  First the breaker of the node is asked (`askBreaker`), then the pool,
which may want a connection opened before it answers (`poolReply`).  The answer decides what the
request meets at the node: an `Encounter` is a refusal or a call, and there is none yet while the
request has to wait.  `Turn` lists what an attempt does after the pool's answer, and `Attempted`
says where the request stands then.

What concerns one request spares all others (`Spares`).
-/

namespace InferenceRouting

open Cluster (Node)
open Http (Call Endpoint Fault)

/-- What a request meets at a node: it is refused, or its call is made. -/
inductive Encounter where
  | refused (e : RoutingError)
  | called
  deriving DecidableEq

/-- Whether the request was refused before a call was attempted. -/
def Encounter.isRejection : Encounter → Bool
  | .refused e => e.isRejection
  | .called => false

/-- What the answer of the pool means for the request, once it is more than to wait. -/
def PoolOutcome.encounter? : PoolOutcome Endpoint → Option Encounter
  | .granted _ => some .called
  | .refused e => some (.refused e)
  | _ => none

/-- A result that a chat call can have: an answer that was read, or a fault. -/
def IsChatResult (result : Except RoutingError Json) : Prop :=
  (∃ answer, result = Endpoint.readChat answer) ∨ ∃ fault : Fault, result = .error fault.error

/-- A chat call fails only with errors that count. -/
theorem IsChatResult.counts {e : RoutingError} (h : IsChatResult (.error e)) :
    e.countsAsEndpointFailure = true := by
  rcases h with ⟨answer, h⟩ | ⟨fault, h⟩
  · unfold Endpoint.readChat at h
    split at h
    · split at h <;> cases h
      rfl
    · cases h
      rfl
  · cases h
    rfl

namespace Http.Endpoint

variable {config : HttpConfig} {address : String} {endpoint : Endpoint} {secret : Option Secret}
  {body : Json} {read : TargetReader} {e : RoutingError}

/-- **Connecting.**  It fails when the address is none of the web, and in no other case. -/
theorem connect_eq_error_iff : connect config address = .error e ↔
    isHttpAddress (trimSlashes address) = false ∧
      e = .invalidInput ("upstream base URL must be http(s): " ++ address) := by
  unfold connect
  dsimp only
  split
  · rename_i hhttp
    simp [hhttp]
  · rename_i hother
    simp only [Except.error.injEq, Bool.eq_false_iff.mpr hother, true_and]
    exact eq_comm

/-- A header is refused to a secret that it cannot carry. -/
theorem authorization_eq_error_iff : authorization secret = .error e ↔
    ∃ s, secret = some s ∧ Secret.isHeaderText s.bearer = false ∧
      e = .invalidInput "credential is not a valid header value" := by
  cases secret with
  | none => simp [authorization]
  | some s =>
      unfold authorization
      dsimp only
      split
      · rename_i htext
        simp [htext]
      · rename_i hother
        simp only [Except.error.injEq, Option.some.injEq, exists_eq_left',
          Bool.eq_false_iff.mpr hother, true_and]
        exact eq_comm

/-- A connection that was opened is to an address of the web. -/
theorem of_connect (h : connect config address = .ok endpoint) :
    isHttpAddress (trimSlashes address) = true ∧
      endpoint.chatUrl = trimSlashes address ++ config.chatPath := by
  unfold connect at h
  dsimp only at h
  split at h
  · rename_i hhttp
    cases h
    exact ⟨hhttp, rfl⟩
  · cases h

/-- There is a header unless it would have to carry a secret that it cannot carry. -/
theorem exists_authorization_iff : (∃ header, authorization secret = .ok header) ↔
    ∀ s, secret = some s → Secret.isHeaderText s.bearer = true := by
  cases secret with
  | none => simp [authorization]
  | some s =>
      unfold authorization
      dsimp only
      split
      · rename_i htext
        simp [htext]
      · rename_i hother
        simp [hother]

/-- A request is refused to a text that is read as no address. -/
theorem request_eq_error_iff {method : Method} {header : Option String} {content : Option Json} :
    request read method address header content = .error e ↔
      read address = none ∧ e = Fault.badAddress.error := by
  unfold Endpoint.request
  cases read address with
  | none =>
      simp only [Except.error.injEq, true_and]
      exact eq_comm
  | some target => simp

/-- **Making a call.**  It fails when no header can carry the secret, or else when no request can be
sent to the address. -/
theorem chat_eq_error_iff : endpoint.chat secret body read = .error e ↔
    authorization secret = .error e ∨
      (∃ header, authorization secret = .ok header) ∧ read endpoint.chatUrl = none ∧
        e = Fault.badAddress.error := by
  unfold chat
  cases hheader : authorization secret with
  | error fault => simp
  | ok header =>
      dsimp only
      cases hrequest : request read .post endpoint.chatUrl header (some body) with
      | error fault =>
          obtain ⟨hnone, rfl⟩ := request_eq_error_iff.mp hrequest
          simp only [Except.error.injEq, hnone, true_and, reduceCtorEq, false_or, Except.ok.injEq,
            exists_eq']
          exact eq_comm
      | ok request =>
          have hsome : read endpoint.chatUrl ≠ none := by
            intro hnone
            cases hrequest.symm.trans (request_eq_error_iff.mpr ⟨hnone, rfl⟩)
          simp [hsome]

/-- That no connection can be opened counts, though no endpoint has heard of it. -/
theorem counts_of_connect (h : connect config address = .error e) :
    e.countsAsEndpointFailure = true := by
  obtain ⟨-, rfl⟩ := connect_eq_error_iff.mp h
  rfl

/-- That a call cannot be made counts, though no endpoint has heard of it. -/
theorem counts_of_chat (h : endpoint.chat secret body read = .error e) :
    e.countsAsEndpointFailure = true := by
  rcases chat_eq_error_iff.mp h with hfault | ⟨-, -, rfl⟩
  · obtain ⟨s, -, -, rfl⟩ := authorization_eq_error_iff.mp hfault
    rfl
  · rfl

end Http.Endpoint

namespace PoolRun

variable {κ : Type} {r s : PoolRun κ} {caller : Nat} {P : RoutingError → Prop}
  {o : PoolRun κ × PoolOutcome κ}

/-- A caller that is told to open a connection and then does so. -/
theorem Replies.andThen {url : String} (h : r.Replies caller P (s, .open url))
    (h' : s.Replies caller P o) : r.Replies caller P o where
  spares c hc := (h.spares c hc).trans (h'.spares c hc)
  lease := by
    have hlease : s.lease? caller = r.lease? caller := by simpa [PoolOutcome.lease?] using h.lease
    rw [h'.lease, hlease]
  settled := h'.settled
  refused := h'.refused

end PoolRun

namespace Fleet

/-- Asks the breaker of a node, made if need be, for permission for a call. -/
def askBreaker (f : Fleet) (now : Nat) (node : Node) : Fleet × Except RoutingError BreakerTicket :=
  ({ f with registry := (f.registry.ask (nodeKey node.id) now).1 },
    (f.registry.ask (nodeKey node.id) now).2)

/-- The answer of the pool to an event of a request, once the connection it may ask for has been
opened. -/
def poolReply (f : Fleet) (now id : Nat) (e : PoolEvent Endpoint) : Fleet × PoolOutcome Endpoint :=
  match (f.onPool now e).2 with
  | .open url => (f.onPool now e).1.onPool now (.opened id (Endpoint.connect f.http url))
  | outcome => ((f.onPool now e).1, outcome)

/-- What an attempt at a node comes to, if that is known at once. -/
def encounter? (f : Fleet) (now id : Nat) (node : Node) : Option Encounter :=
  match f.askBreaker now node with
  | (_, .error e) => some (.refused e)
  | (g, .ok _) => (g.poolReply now id (.acquire id (some node.baseUrl))).2.encounter?

/-- A request leaves another where it is. -/
structure Spares (f g : Fleet) (id : Nat) : Prop where
  route : g.route? id = f.route? id
  pool : f.pool.Spares g.pool id

/-- Nothing of the request is under way. -/
structure Absent (f : Fleet) (id : Nat) : Prop where
  route : f.route? id = none
  lease : f.pool.lease? id = none

/-- How an attempt goes on when the pool has answered and the fleet is `g`. -/
inductive Turn (now : Nat) (g : Fleet) (r : Route) : Option Encounter → Fleet × Attempt → Prop
  | waits : Turn now g r none (g.keep r, .queued)
  | refused (e : RoutingError) : Turn now g r (some (.refused e)) (g.conclude now r (.error e))
  | calls (call : Call) : Turn now g r (some .called) (g.keep r, .calling call)
  | unsendable (endpoint : Endpoint) {e : RoutingError}
      (he : endpoint.chat r.plan.secret r.plan.body g.readTarget = .error e) :
      Turn now g r (some .called) (g.finishCall now r (.error e))

/-- Where a request stands after its turn at a node. -/
inductive Attempted (id : Nat) (node : Node) (rest : List Node) :
    Option Encounter → Fleet × Attempt → Prop
  | waits {f : Fleet} {r : Route} (hroute : f.route? id = some r) (hnode : r.node = node)
      (hrest : r.rest = rest) (hlease : f.pool.lease? id = none) :
      Attempted id node rest none (f, .queued)
  | calls {f : Fleet} {r : Route} {call : Call} (hroute : f.route? id = some r)
      (hnode : r.node = node) (hrest : r.rest = rest) (hidle : f.pool.acquisition? id = none)
      (hlease : (f.pool.lease? id).isSome) :
      Attempted id node rest (some .called) (f, .calling call)
  | refused {f : Fleet} {e : RoutingError} (habsent : f.Absent id)
      (he : e.isRejection = true ∨ e.countsAsEndpointFailure = true) :
      Attempted id node rest (some (.refused e)) (f, .finished (.error e))
  | unsendable {f : Fleet} {e : RoutingError} (habsent : f.Absent id)
      (he : e.countsAsEndpointFailure = true) :
      Attempted id node rest (some .called) (f, .finished (.error e))

variable {f g k : Fleet} {now id other : Nat} {node : Node} {rest : List Node} {r : Route}
  {purpose : Purpose} {plan : Plan} {met : Option Encounter} {out : Fleet × Attempt}

/-- A request that is found has the number by which it was sought. -/
theorem id_of_route? (h : f.route? id = some r) : r.id = id :=
  (Keyed.of_find?_eq_some h).2

theorem route?_keep (f : Fleet) (r : Route) : (f.keep r).route? r.id = some r := by
  have hold : (f.routes.filter (·.id ≠ r.id)).find? (·.id == r.id) = none :=
    Keyed.find?_filter_self r.id f.routes
  simp only [route?, keep, List.find?_append, hold]
  simp

theorem route?_forget (f : Fleet) (id : Nat) : (f.forget id).route? id = none :=
  Keyed.find?_filter_self id f.routes

/-- The pool after the answer to an event, in its own words. -/
theorem poolReply_replies {P : RoutingError → Prop} {e : PoolEvent Endpoint}
    (hconnect : ∀ url e, Endpoint.connect f.http url = .error e → P e)
    (h : f.pool.Replies id P (f.pool.step now e)) :
    f.pool.Replies id P ((f.poolReply now id e).1.pool, (f.poolReply now id e).2) := by
  unfold poolReply
  split
  · rename_i url hopen
    have hfirst : f.pool.Replies id P ((f.pool.step now e).1, .open url) := by
      have houtcome : (f.pool.step now e).2 = .open url := hopen
      rw [← houtcome]
      exact h
    exact hfirst.andThen ((f.pool.step now e).1.opened_replies now id (hconnect url))
  · exact h

/-- The answer of the pool leaves everything else in the fleet. -/
theorem poolReply_eq (f : Fleet) (now id : Nat) (e : PoolEvent Endpoint) :
    (f.poolReply now id e).1 = { f with pool := (f.poolReply now id e).1.pool } := by
  unfold poolReply
  split <;> rfl

/-- After the pool's answer it only remains to act on it. -/
theorem afterPool_eq (f : Fleet) (now : Nat) (r : Route) (e : PoolEvent Endpoint) :
    (f.onPool now e).1.afterPool now r (f.onPool now e).2 =
      (f.poolReply now r.id e).1.afterOpening now r (f.poolReply now r.id e).2 := by
  unfold poolReply
  cases h : (f.onPool now e).2 <;> rfl

/-- **Acting on the pool's answer.** -/
theorem afterOpening_turn (g : Fleet) (now : Nat) (r : Route) (o : PoolOutcome Endpoint) :
    Turn now g r o.encounter? (g.afterOpening now r o) := by
  cases o with
  | granted l =>
      simp only [afterOpening, makeCall, PoolOutcome.encounter?]
      split
      · exact .calls _
      · rename_i e he
        exact .unsendable l.connection he
  | refused e => exact .refused e
  | _ => exact .waits

/-- A breaker refuses with a rejection. -/
theorem isRejection_of_askBreaker {e : RoutingError} (h : (f.askBreaker now node).2 = .error e) :
    e.isRejection = true := by
  have hlead := f.registry.getOrCreate_leads (nodeKey node.id) none
  obtain ⟨name, t, rfl⟩ := Registry.circuitOpen_of_enter (Registry.isSome_entry?_of_leads hlead) h
  rfl

/-- A request that the breaker lets in goes on after the pool's answer. -/
theorem attempt_of_admitted {ticket : BreakerTicket} (h : f.askBreaker now node = (g, .ok ticket))
    (id : Nat) (purpose : Purpose) (plan : Plan) (rest : List Node) :
    f.attempt now id purpose plan node rest =
      (g.poolReply now id (.acquire id (some node.baseUrl))).1.afterOpening now
        ⟨id, purpose, plan, node, rest, ticket⟩
        (g.poolReply now id (.acquire id (some node.baseUrl))).2 := by
  unfold askBreaker Registry.ask at h
  obtain ⟨rfl, hticket⟩ := Prod.mk.inj h
  unfold attempt
  dsimp only at hticket ⊢
  generalize (f.registry.getOrCreate (nodeKey node.id) none).1.enter
    (f.registry.getOrCreate (nodeKey node.id) none).2 now = entered at hticket ⊢
  obtain ⟨registry, answer⟩ := entered
  subst hticket
  exact afterPool_eq { f with registry } now ⟨id, purpose, plan, node, rest, ticket⟩ _

/-- **An attempt.**  The breaker refuses the request, or the attempt goes on after the pool's
answer. -/
theorem attempt_cases (f : Fleet) (now id : Nat) (purpose : Purpose) (plan : Plan) (node : Node)
    (rest : List Node) :
    (∃ g e, f.askBreaker now node = (g, .error e) ∧ f.encounter? now id node = some (.refused e) ∧
      f.attempt now id purpose plan node rest = (g, .finished (.error e))) ∨
    (∃ g ticket, f.askBreaker now node = (g, .ok ticket) ∧
      f.encounter? now id node =
        (g.poolReply now id (.acquire id (some node.baseUrl))).2.encounter? ∧
      Turn now (g.poolReply now id (.acquire id (some node.baseUrl))).1
        ⟨id, purpose, plan, node, rest, ticket⟩ (f.encounter? now id node)
        (f.attempt now id purpose plan node rest)) := by
  unfold encounter?
  cases hanswer : f.askBreaker now node with
  | mk g answer =>
      cases answer with
      | error e =>
          refine .inl ⟨g, e, rfl, rfl, ?_⟩
          unfold askBreaker Registry.ask at hanswer
          obtain ⟨rfl, herror⟩ := Prod.mk.inj hanswer
          unfold attempt
          dsimp only at herror ⊢
          generalize (f.registry.getOrCreate (nodeKey node.id) none).1.enter
            (f.registry.getOrCreate (nodeKey node.id) none).2 now = entered at herror ⊢
          obtain ⟨registry, answer⟩ := entered
          subst herror
          rfl
      | ok ticket =>
          refine .inr ⟨g, ticket, rfl, rfl, ?_⟩
          rw [attempt_of_admitted hanswer]
          exact afterOpening_turn _ now _ _

/-- A request that waits for a connection goes nowhere. -/
theorem proceed_queued (now id : Nat) (purpose : Purpose) (plan : Plan) (rest : List Node)
    (node : Node) (f : Fleet) : proceed now id purpose plan rest node f .queued = (f, .queued) := by
  cases rest <;> rfl

/-- A request that waits for an answer goes nowhere. -/
theorem proceed_calling (now id : Nat) (purpose : Purpose) (plan : Plan) (rest : List Node)
    (node : Node) (f : Fleet) (call : Call) :
    proceed now id purpose plan rest node f (.calling call) = (f, .calling call) := by
  cases rest <;> rfl

/-- A request that has been answered is over. -/
theorem proceed_ok (now id : Nat) (purpose : Purpose) (plan : Plan) (rest : List Node)
    (node : Node) (f : Fleet) (value : Json) :
    proceed now id purpose plan rest node f (.finished (.ok value)) =
      f.deliver now purpose (.ok ⟨node.id, plan.model, plan.slot, value⟩) := by
  cases rest <;> rfl

/-- A request that an error ends is over, wherever else it could have gone. -/
theorem proceed_of_counts {e : RoutingError} (he : e.countsAsEndpointFailure = true)
    (now id : Nat) (purpose : Purpose) (plan : Plan) (rest : List Node) (node : Node) (f : Fleet) :
    proceed now id purpose plan rest node f (.finished (.error e)) =
      f.deliver now purpose (.error e) := by
  cases rest <;> simp [proceed, he]

/-- A request that a node rejects goes on to the next one. -/
theorem proceed_next {e : RoutingError} (he : e.countsAsEndpointFailure = false) (now id : Nat)
    (purpose : Purpose) (plan : Plan) (next : Node) (rest : List Node) (node : Node) (f : Fleet) :
    proceed now id purpose plan (next :: rest) node f (.finished (.error e)) =
      proceed now id purpose plan rest next (f.attempt now id purpose plan next rest).1
        (f.attempt now id purpose plan next rest).2 := by
  simp [proceed, he]

namespace Absent

theorem conclude (h : g.pool.lease? r.id = none) (now : Nat) (result : Except RoutingError Json) :
    (g.conclude now r result).1.Absent r.id :=
  ⟨g.route?_forget r.id, h⟩

/-- Nothing is left of a call that is over. -/
theorem finishCall (g : Fleet) (now : Nat) (r : Route) (result : Except RoutingError Json) :
    (g.finishCall now r result).1.Absent r.id :=
  conclude (g.pool.lease?_release now r.id) now result

end Absent

/-- Where a request stands when the pool has answered it. -/
theorem Turn.attempted {o : PoolOutcome Endpoint} (h : Turn now g r o.encounter? out)
    (hbefore : f.pool.lease? r.id = none)
    (hreplies : f.pool.Replies r.id (fun e => e.countsAsEndpointFailure = true) (g.pool, o)) :
    Attempted r.id r.node r.rest o.encounter? out := by
  have hlease : g.pool.lease? r.id = o.lease? := by simpa [hbefore] using hreplies.lease
  have hsettled := hreplies.settled
  have hrefused := hreplies.refused
  cases o with
  | granted l =>
      cases h with
      | calls call =>
          have hheld : (g.pool.lease? r.id).isSome := by rw [hlease]; rfl
          exact .calls (g.route?_keep r) rfl rfl (hsettled rfl) hheld
      | unsendable endpoint he =>
          exact .unsendable (.finishCall g now r _) (Endpoint.counts_of_chat he)
  | refused e =>
      cases h
      exact .refused (.conclude hlease now _) (hrefused e rfl)
  | _ =>
      cases h
      exact .waits (g.route?_keep r) rfl rfl hlease

/-- **Where an attempt leads.**  A request of which nothing is under way waits, or makes its call,
or has been refused, or its call could not be sent. -/
theorem attempt_attempted (h : f.Absent id) (now : Nat) (purpose : Purpose) (plan : Plan)
    (node : Node) (rest : List Node) :
    Attempted id node rest (f.encounter? now id node)
      (f.attempt now id purpose plan node rest) := by
  rcases attempt_cases f now id purpose plan node rest with
    ⟨g, e, hanswer, hmet, hattempt⟩ | ⟨g, ticket, hanswer, hmet, hturn⟩
  · have hg : (f.askBreaker now node).1 = g := by rw [hanswer]
    have he : (f.askBreaker now node).2 = .error e := by rw [hanswer]
    rw [hmet, hattempt]
    subst hg
    exact .refused ⟨h.route, h.lease⟩ (.inl (isRejection_of_askBreaker he))
  · have hg : (f.askBreaker now node).1 = g := by rw [hanswer]
    subst hg
    rw [hmet] at hturn ⊢
    have hacquire : (f.askBreaker now node).1.pool.Replies id
        (fun e => e.countsAsEndpointFailure = true)
        ((f.askBreaker now node).1.pool.step now (.acquire id (some node.baseUrl))) :=
      f.pool.acquire_replies now id (some node.baseUrl)
    exact hturn.attempted h.lease
      (poolReply_replies (fun _ _ => Endpoint.counts_of_connect) hacquire)

/-- **Where the pool's answer leads.**  The same for a request that has waited. -/
theorem afterPool_attempted {e : PoolEvent Endpoint} (hbefore : f.pool.lease? r.id = none)
    (h : f.pool.Replies r.id (fun e => e.countsAsEndpointFailure = true) (f.pool.step now e)) :
    Attempted r.id r.node r.rest (f.poolReply now r.id e).2.encounter?
      ((f.onPool now e).1.afterPool now r (f.onPool now e).2) := by
  rw [afterPool_eq]
  exact (afterOpening_turn _ now r _).attempted hbefore
    (poolReply_replies (fun _ _ => Endpoint.counts_of_connect) h)

namespace Spares

theorem refl (f : Fleet) (id : Nat) : f.Spares f id :=
  ⟨rfl, .refl f.pool id⟩

theorem trans (h : f.Spares g id) (h' : g.Spares k id) : f.Spares k id :=
  ⟨h'.route.trans h.route, h.pool.trans h'.pool⟩

/-- What changes neither the requests nor the pool. -/
theorem same (hroutes : g.routes = f.routes) (hpool : g.pool = f.pool) : f.Spares g id :=
  ⟨by simp only [route?, hroutes], hpool ▸ .refl f.pool id⟩

/-- An event of the pool that is not about the request. -/
theorem onPool (f : Fleet) (now : Nat) {e : PoolEvent Endpoint} (h : e.caller? ≠ some id) :
    f.Spares (f.onPool now e).1 id :=
  ⟨rfl, f.pool.step_spares now h⟩

/-- Noting where another request is. -/
theorem keep (f : Fleet) (h : id ≠ r.id) : f.Spares (f.keep r) id := by
  refine ⟨?_, .refl f.pool id⟩
  have hne : (r.id == id) = false := beq_false_of_ne (Ne.symm h)
  simp only [route?, Fleet.keep, List.find?_append, List.find?_cons, hne, List.find?_nil,
    Option.or_none]
  exact Keyed.find?_filter_of_ne h f.routes

/-- The end of an attempt of another request. -/
theorem conclude (f : Fleet) (now : Nat) (h : id ≠ r.id) (result : Except RoutingError Json) :
    f.Spares (f.conclude now r result).1 id :=
  ⟨Keyed.find?_filter_of_ne h f.routes, .refl f.pool id⟩

/-- The end of a call of another request. -/
theorem finishCall (f : Fleet) (now : Nat) (h : id ≠ r.id) (result : Except RoutingError Json) :
    f.Spares (f.finishCall now r result).1 id :=
  (onPool f now (e := .release r.id) fun hid => h (Option.some.inj hid).symm).trans
    (conclude _ now h result)

/-- The pool's answer to another request. -/
theorem poolReply (f : Fleet) (now : Nat) {e : PoolEvent Endpoint} (h : id ≠ other)
    (he : e.caller? = some other) : f.Spares (f.poolReply now other e).1 id := by
  have hfirst : f.Spares (f.onPool now e).1 id :=
    onPool f now fun hid => h (Option.some.inj (hid.symm.trans he))
  unfold Fleet.poolReply
  split
  · exact hfirst.trans (onPool _ now fun hid => h (Option.some.inj hid).symm)
  · exact hfirst

/-- What another request does after the pool's answer. -/
theorem turn (h : Turn now g r met out) (hid : id ≠ r.id) : g.Spares out.1 id := by
  cases h with
  | waits => exact keep g hid
  | refused e => exact conclude g now hid _
  | calls call => exact keep g hid
  | unsendable endpoint he => exact finishCall g now hid _

/-- An attempt of another request. -/
theorem attempt (f : Fleet) (now : Nat) (h : id ≠ other) (purpose : Purpose) (plan : Plan)
    (node : Node) (rest : List Node) :
    f.Spares (f.attempt now other purpose plan node rest).1 id := by
  have hasked : f.Spares (f.askBreaker now node).1 id := same rfl rfl
  rcases attempt_cases f now other purpose plan node rest with
    ⟨g, e, hanswer, -, hattempt⟩ | ⟨g, ticket, hanswer, -, hturn⟩
  · rw [hanswer] at hasked
    rw [hattempt]
    exact hasked
  · rw [hanswer] at hasked
    exact (hasked.trans (poolReply g now h rfl)).trans (turn hturn h)

/-- Another request that goes on after an attempt. -/
theorem proceed (f : Fleet) (now : Nat) (h : id ≠ other) (purpose : Purpose) (plan : Plan)
    (rest : List Node) (node : Node) (a : Attempt) :
    f.Spares (proceed now other purpose plan rest node f a).1 id := by
  induction rest generalizing f node a with
  | nil =>
      cases a with
      | finished result => cases result <;> exact same rfl rfl
      | _ => exact refl f id
  | cons next rest ih =>
      cases a with
      | finished result =>
          cases result with
          | ok value => exact same rfl rfl
          | error e =>
              simp only [Fleet.proceed]
              split
              · exact same rfl rfl
              · exact (attempt f now h purpose plan next rest).trans (ih _ next _)
      | _ => exact refl f id

/-- **What others do.**  An event of another request leaves the request where it is. -/
theorem step (f : Fleet) (now : Nat) (h : id ≠ other) (e : RouteEvent) :
    f.Spares (f.step now other e).1 id := by
  unfold Fleet.step
  split
  · rename_i r hroute
    obtain rfl := id_of_route? hroute
    have hpool : ∀ pe : PoolEvent Endpoint, pe.caller? = some r.id →
        f.Spares (f.poolEvent now r pe).1 id := by
      intro pe hpe
      have hreply := poolReply f now h hpe
      have hturn := turn (afterOpening_turn (f.poolReply now r.id pe).1 now r
        (f.poolReply now r.id pe).2) h
      rw [← afterPool_eq] at hturn
      exact (hreply.trans hturn).trans (proceed _ now h r.purpose r.plan r.rest r.node _)
    cases e with
    | dispatch request => exact refl f id
    | drive pair body => exact refl f id
    | collect => exact hpool (.collect r.id) rfl
    | expire => exact hpool (.expire r.id) rfl
    | answered result =>
        simp only [stepRoute]
        split
        · exact (finishCall f now h result).trans (proceed _ now h r.purpose r.plan r.rest r.node _)
        · exact refl f id
    | drop =>
        have hrelease := onPool f now (e := .release r.id) fun hid => h (Option.some.inj hid).symm
        have habandon := onPool (f.onPool now (.release r.id)).1 now (e := .abandon r.id)
          fun hid => h (Option.some.inj hid).symm
        refine (hrelease.trans habandon).trans ⟨?_, .refl _ id⟩
        exact Keyed.find?_filter_of_ne h f.routes
  · have hbegin : ∀ (purpose : Purpose) (plan : Plan) (node : Node) (rest : List Node),
        f.Spares (f.begin now other purpose plan node rest).1 id :=
      fun purpose plan node rest => (attempt f now h purpose plan node rest).trans
        (proceed _ now h purpose plan rest node _)
    split
    · simp only [dispatch]
      split
      · exact refl f id
      · exact refl f id
      · exact hbegin _ _ _ _
    · simp only [drive]
      split
      · exact refl f id
      · exact hbegin _ _ _ _
    · exact refl f id

end Spares

end Fleet

end InferenceRouting
