import InferenceRouting.Proofs.Fleet.Connections
import InferenceRouting.Proofs.Fleet.Verdicts

/-!
# Requests for which nothing is sent

A request can end without a call: it is refused at once, it is rejected by the breakers and the pool
at every candidate, or it is let in at a node and its call cannot be made there.  No endpoint has
been asked anything in these cases, and the breakers hear nothing in the first two.

The third is held against the node all the same: that no call can be made there (`Unsendable`) is
an error that counts, and it is raised after the breaker has let the request in.
`course_unsent_counts` says that this is the only case.  When a request ends without a call, its
error counts exactly when it is that of the call to the node it came to last, and then the breaker
of that node counts one failure.
-/

namespace InferenceRouting

open Cluster (Node Tracker)
open Http (Call Endpoint Fault isHttpAddress trimSlashes)

namespace Fleet

/-- The call of a request at a node, if it can be made. -/
def callAt (f : Fleet) (node : Node) (plan : Plan) : Except RoutingError Call :=
  match Endpoint.connect f.http node.baseUrl with
  | .error e => .error e
  | .ok endpoint => endpoint.chat plan.secret plan.body f.readTarget

/-- Why no call can be made at a node with a secret. -/
inductive Unsendable (f : Fleet) (node : Node) (secret : Option Secret) : RoutingError → Prop
  /-- The address of the node is none of the web. -/
  | connection (hother : isHttpAddress (trimSlashes node.baseUrl) = false) :
      Unsendable f node secret
        (.invalidInput ("upstream base URL must be http(s): " ++ node.baseUrl))
  /-- No header can carry the secret. -/
  | credential {s : Secret} (hhttp : isHttpAddress (trimSlashes node.baseUrl) = true)
      (hsecret : secret = some s) (hother : Secret.isHeaderText s.bearer = false) :
      Unsendable f node secret (.invalidInput "credential is not a valid header value")
  /-- The address for chat calls at the node is one to which no request can be sent. -/
  | address (hhttp : isHttpAddress (trimSlashes node.baseUrl) = true)
      (hsecret : ∀ s, secret = some s → Secret.isHeaderText s.bearer = true)
      (hother : f.readTarget (trimSlashes node.baseUrl ++ f.http.chatPath) = none) :
      Unsendable f node secret Fault.badAddress.error

/-- Nothing of the request is under way, neither in the fleet nor in its pool. -/
structure Free (f : Fleet) (id : Nat) : Prop extends f.Absent id where
  idle : f.pool.acquisition? id = none

/-- What may happen while no other request moves, if the connections that come to the pool meanwhile
lead where they should. -/
inductive Aside (id : Nat) : Fleet → Fleet → Prop
  | timers {f : Fleet} (now : Nat) : Aside id f { f with registry := f.registry.fireDue now }
  | onPool {f : Fleet} (now : Nat) {e : PoolEvent Endpoint} (h : e.caller? ≠ some id)
      (hbrought : Genuine f.http (f.pool.brought e)) : Aside id f (f.onPool now e).1
  | nodes {f : Fleet} (tracker : Tracker) : Aside id f { f with tracker }

/-- A fleet that has come of another one, in which a request waits for its own node at most. -/
structure Placed (f₀ f : Fleet) (id : Nat) : Prop where
  keeps : f₀.Keeps f
  wants : ∀ r, f.route? id = some r → ∀ url, f.pool.wanted id = some url → url = r.node.baseUrl

/-- What comes of an attempt at a node: if it has ended, the request is gone, and it was rejected or
its call could not be made there. -/
structure Tries (f₀ : Fleet) (id : Nat) (plan : Plan) (node : Node) (met : Option Encounter)
    (out : Fleet × Attempt) : Prop where
  placed : f₀.Placed out.1 id
  ended : ∀ result, out.2 = .finished result → out.1.Free id ∧ met.isSome = true ∧
    ∃ e, result = .error e ∧ (e.isRejection = true ∨ f₀.callAt node plan = .error e)

/-- Where a request stands for which nothing was sent: if it is over, it ended with an error, and
one that counts is that of its call to the node it visited last. -/
structure Unsent (f₀ : Fleet) (id : Nat) (plan : Plan) (a : Account) (f : Fleet) : Prop where
  placed : f₀.Placed f id
  failed : ∀ result, a.result = some result → ∃ e, result = .error e ∧
    (e.countsAsEndpointFailure = true →
      ∃ v, a.visits.getLast? = some v ∧ f₀.callAt v.node plan = .error e)

/-- What the breakers know of a request that ended with an error and without a call. -/
structure EndedUnsent (f₀ f : Fleet) (a : Account) (secret : Option Secret) (e : RoutingError) :
    Prop where
  /-- The error counts exactly if it is why no call could be made at the node visited last. -/
  counts_iff : e.countsAsEndpointFailure = true ↔
    ∃ v, a.visits.getLast? = some v ∧ f₀.Unsendable v.node secret e
  /-- An error that does not count leaves every breaker as it was. -/
  spared : e.countsAsEndpointFailure = false → f₀.registry.Unjudged f.registry
  /-- One that counts is a failure of the node that was visited last, and of no other. -/
  counted : ∀ v, a.visits.getLast? = some v → f₀.Unsendable v.node secret e →
    f₀.registry.Heard f.registry (nodeKey v.node.id) a.time .failure ∧
      ∀ key, (f.registry.breakerFor key).totalFailures =
        (f₀.registry.breakerFor key).totalFailures + if key = nodeKey v.node.id then 1 else 0

variable {f g f₀ : Fleet} {now id t₀ : Nat} {node : Node} {rest candidates : List Node}
  {model : String} {a : Account} {r : Route} {start : RouteEvent} {purpose : Purpose} {plan : Plan}
  {met : Option Encounter} {e : RoutingError}

/-! ## Calls that cannot be made -/

/-- **Why a call cannot be made.** -/
theorem callAt_eq_error_iff : f.callAt node plan = .error e ↔ f.Unsendable node plan.secret e := by
  unfold callAt
  cases hconnect : Endpoint.connect f.http node.baseUrl with
  | error fault =>
      obtain ⟨hother, rfl⟩ := Endpoint.connect_eq_error_iff.mp hconnect
      constructor
      · intro h
        cases h
        exact .connection hother
      · intro h
        cases h with
        | connection => rfl
        | credential hhttp => cases hhttp.symm.trans hother
        | address hhttp => cases hhttp.symm.trans hother
  | ok endpoint =>
      obtain ⟨hhttp, hchat⟩ := Endpoint.of_connect hconnect
      dsimp only
      rw [Endpoint.chat_eq_error_iff, Endpoint.authorization_eq_error_iff,
        Endpoint.exists_authorization_iff, hchat]
      constructor
      · rintro (⟨s, hsecret, hother, rfl⟩ | ⟨hsecret, hother, rfl⟩)
        · exact .credential hhttp hsecret hother
        · exact .address hhttp hsecret hother
      · intro h
        cases h with
        | connection hother => cases hhttp.symm.trans hother
        | credential _ hsecret hother => exact .inl ⟨_, hsecret, hother, rfl⟩
        | address _ hsecret hother => exact .inr ⟨hsecret, hother, rfl⟩

/-- That a call cannot be made counts, though no endpoint has heard of it. -/
theorem counts_of_callAt (h : f.callAt node plan = .error e) :
    e.countsAsEndpointFailure = true := by
  cases callAt_eq_error_iff.mp h <;> rfl

/-! ## Attempts -/

theorem Free.isBusy (h : f.Free id) : f.pool.isBusy id = false := by
  simp [PoolRun.isBusy, h.idle, h.lease]

/-- A request waits for its own node when that is noted. -/
theorem Placed.keep (hkeeps : f₀.Keeps g)
    (hwants : ∀ url, g.pool.wanted r.id = some url → url = r.node.baseUrl) :
    f₀.Placed (g.keep r) r.id := by
  refine ⟨hkeeps.trans (.same rfl rfl rfl), fun q hq => ?_⟩
  obtain rfl := Option.some.inj ((g.route?_keep r).symm.trans hq)
  exact hwants

/-- A request that is gone waits for nothing. -/
theorem Placed.of_route?_eq_none (hkeeps : f₀.Keeps f) (hroute : f.route? id = none) :
    f₀.Placed f id :=
  ⟨hkeeps, fun r hr => by cases hr.symm.trans hroute⟩

/-- Nothing is left of a call that could not be made. -/
theorem Free.finishCall (hidle : g.pool.acquisition? r.id = none) (now : Nat)
    (result : Except RoutingError Json) : (g.finishCall now r result).1.Free r.id := by
  refine ⟨.finishCall g now r result, ?_⟩
  exact (g.pool.acquisition?_release now r.id r.id).trans hidle

/-- **After the pool's answer.** -/
theorem afterOpening_tries {o : PoolOutcome Endpoint} (hkeeps : f₀.Keeps g)
    (hanswers : PoolRun.Answers (Endpoint.connect g.http) r.id r.node.baseUrl (g.pool, o))
    (hlease : g.pool.lease? r.id = o.lease?) (now : Nat) :
    Tries f₀ r.id r.plan r.node o.encounter? (g.afterOpening now r o) := by
  cases o with
  | granted l =>
      have hconnect : Endpoint.connect f₀.http r.node.baseUrl = .ok l.connection := by
        rw [← hkeeps.http]
        exact hanswers.granted l rfl
      simp only [afterOpening, makeCall]
      split
      · refine ⟨.keep hkeeps hanswers.wants, fun result hfinished => ?_⟩
        cases hfinished
      · rename_i e he
        have hfree := Free.finishCall (hanswers.granted_ends l rfl) now (.error e)
        refine ⟨.of_route?_eq_none (hkeeps.trans (.finishCall g now r _)) hfree.route, ?_⟩
        intro result hfinished
        cases hfinished
        refine ⟨hfree, rfl, e, rfl, .inr ?_⟩
        rw [hkeeps.readTarget] at he
        simp only [callAt, hconnect]
        exact he
  | refused e =>
      have habsent : (g.conclude now r (.error e)).1.Absent r.id := .conclude hlease now _
      refine ⟨.of_route?_eq_none (hkeeps.trans (.same rfl rfl rfl)) habsent.route, ?_⟩
      intro result hfinished
      cases hfinished
      refine ⟨⟨habsent, hanswers.refused_ends e rfl⟩, rfl, e, rfl, ?_⟩
      refine (hanswers.refused e rfl).imp_right fun hconnect => ?_
      rw [hkeeps.http] at hconnect
      simp only [callAt, hconnect]
  | _ =>
      refine ⟨.keep hkeeps hanswers.wants, fun result hfinished => ?_⟩
      cases hfinished

/-- **An attempt** of a request that is free. -/
theorem attempt_tries (hconnected : f₀.Connected) (hkeeps : f₀.Keeps f) (hfree : f.Free id)
    (now : Nat) (purpose : Purpose) (plan : Plan) (node : Node) (rest : List Node) :
    Tries f₀ id plan node (f.encounter? now id node)
      (f.attempt now id purpose plan node rest) := by
  have hasked : f₀.Keeps (f.askBreaker now node).1 := hkeeps.trans (.same rfl rfl rfl)
  rcases attempt_cases f now id purpose plan node rest with
    ⟨g, e, hanswer, hmet, hattempt⟩ | ⟨g, ticket, hanswer, hmet, -⟩
  · have hg : (f.askBreaker now node).1 = g := by rw [hanswer]
    have he : (f.askBreaker now node).2 = .error e := by rw [hanswer]
    subst hg
    rw [hattempt, hmet]
    refine ⟨.of_route?_eq_none hasked hfree.route, fun result hfinished => ?_⟩
    cases hfinished
    exact ⟨⟨⟨hfree.route, hfree.lease⟩, hfree.idle⟩, rfl, e, rfl,
      .inl (isRejection_of_askBreaker he)⟩
  · have hg : (f.askBreaker now node).1 = g := by rw [hanswer]
    subst hg
    have hthere := hasked.connected hconnected
    have hacquire : (f.askBreaker now node).1.pool.Replies id (fun _ => True)
        ((f.askBreaker now node).1.pool.step now (.acquire id (some node.baseUrl))) :=
      f.pool.acquire_replies now id (some node.baseUrl)
    have hlease : (f.askBreaker now node).1.pool.lease? id = none := hfree.lease
    have hanswers := poolReply_answers hthere rfl (genuine_of_eq_nil rfl)
      (PoolRun.acquire_answers hthere.sound hthere.genuine hfree.isBusy now node.baseUrl)
    have hreplied := hasked.trans
      (.poolReply (e := .acquire id (some node.baseUrl)) _ now rfl rfl)
    rw [attempt_of_admitted hanswer, hmet]
    refine afterOpening_tries (r := ⟨id, purpose, plan, node, rest, ticket⟩) hreplied ?_ ?_ now
    · rw [poolReply_eq]
      exact hanswers
    · simpa [hlease] using (poolReply_replies (fun _ _ _ => trivial) hacquire).lease

/-! ## The course of a request -/

theorem Placed.deliver (h : f₀.Placed f id) (now : Nat) (purpose : Purpose)
    (result : Except RoutingError InferenceAnswer) :
    f₀.Placed (f.deliver now purpose result).1 id :=
  ⟨h.keeps.trans (.same rfl rfl rfl), h.wants⟩

/-- A request that stays at a node, or has no other to go to. -/
theorem Tries.unsent {step : Attempt} (h : Tries f₀ id plan node met (f, step))
    (hstays : step.movesOn = false ∨ rest = []) (now : Nat) (purpose : Purpose)
    (visits : List Visit) (calls : List Call) :
    Unsent f₀ id plan
      ⟨visits ++ Node.visit node met, calls,
        (proceed now id purpose plan rest node f step).2.result?, now⟩
      (proceed now id purpose plan rest node f step).1 := by
  cases step with
  | queued =>
      rw [proceed_queued]
      exact ⟨h.placed, nofun⟩
  | calling call =>
      rw [proceed_calling]
      exact ⟨h.placed, nofun⟩
  | finished result =>
      obtain ⟨-, hmet, e, rfl, he⟩ := h.ended result rfl
      obtain ⟨met, rfl⟩ := Option.isSome_iff_exists.mp hmet
      have hproceed : proceed now id purpose plan rest node f (.finished (.error e)) =
          f.deliver now purpose (.error e) := by
        rcases hstays with hstays | rfl
        · exact proceed_of_counts (by simpa [Attempt.movesOn] using hstays) now id purpose plan
            rest node f
        · rfl
      rw [hproceed]
      refine ⟨h.placed.deliver now purpose _, fun result hresult => ?_⟩
      cases hresult
      refine ⟨e, rfl, fun hcounts => ⟨⟨node, met⟩, by simp [Node.visit], ?_⟩⟩
      refine he.resolve_left fun hrejection => ?_
      rw [RoutingError.not_counts_of_isRejection hrejection] at hcounts
      cases hcounts

/-- **Going on.**  However many nodes a request is tried at, it ends without a call only by what it
met at the last one. -/
theorem proceed_unsent (hconnected : f₀.Connected) (now : Nat) (purpose : Purpose) {step : Attempt}
    (h : Tries f₀ id plan node met (f, step)) (visits : List Visit) (calls : List Call) :
    Unsent f₀ id plan
      ⟨visits ++ (Node.visit node met ++
          if step.movesOn then visitsOn now id purpose plan rest f else []), calls,
        (proceed now id purpose plan rest node f step).2.result?, now⟩
      (proceed now id purpose plan rest node f step).1 := by
  -- By induction on the nodes that are left.  An attempt that moves on leaves the request free, so the
  -- next one finds it as the first did.
  induction rest generalizing visits node met f step with
  | nil =>
      simp only [visitsOn, ite_self, List.append_nil]
      exact h.unsent (.inr rfl) now purpose visits calls
  | cons next rest ih =>
      cases hmoves : step.movesOn with
      | false =>
          simp only [Bool.false_eq_true, if_false, List.append_nil]
          exact h.unsent (.inl hmoves) now purpose visits calls
      | true =>
          obtain ⟨e, rfl, hneutral⟩ := Attempt.exists_of_movesOn hmoves
          obtain ⟨hfree, -, -⟩ := h.ended _ rfl
          rw [proceed_next hneutral, if_pos rfl, visitsOn_cons, ← List.append_assoc]
          exact ih (attempt_tries hconnected h.placed.keeps hfree now purpose plan next rest)
            (visits ++ Node.visit node met)

/-- **Looking at the pool.**  A request that holds no connection goes on with what it is given. -/
theorem poolEvent_unsent {pe : PoolEvent Endpoint} (hconnected : f₀.Connected)
    (hplaced : f₀.Placed f r.id) (hroute : f.route? r.id = some r)
    (hlease : f.pool.lease? r.id = none) (hpe : pe = .collect r.id ∨ pe = .expire r.id) (now : Nat)
    (visits : List Visit) (calls : List Call) :
    Unsent f₀ r.id r.plan
      ⟨visits ++ f.poolVisits now r pe, calls, (f.poolEvent now r pe).2.result?, now⟩
      (f.poolEvent now r pe).1 := by
  -- A request that waits for nothing is told nothing; one that waits for an address is answered about
  -- that one.
  cases hwants : f.pool.wanted r.id with
  | none =>
      have hidle : f.pool.acquisition? r.id = none := Option.map_eq_none_iff.mp hwants
      have hnothing : f.pool.step now pe = (f.pool, .nothing) := by
        rcases hpe with rfl | rfl
        · exact PoolRun.collect_of_acquisition?_eq_none hidle now
        · exact PoolRun.expire_of_acquisition?_eq_none hidle now
      obtain ⟨hevent, hvisits⟩ := poolEvent_of_nothing (r := r) hnothing
      rw [hevent, hvisits]
      exact ⟨.keep hplaced.keeps (hplaced.wants r hroute), nofun⟩
  | some url =>
      obtain rfl := hplaced.wants r hroute url hwants
      have hthere := hplaced.keeps.connected hconnected
      have hcaller : pe.caller? = some r.id := by rcases hpe with rfl | rfl <;> rfl
      have hnone : f.pool.brought pe = [] := by rcases hpe with rfl | rfl <;> rfl
      have hanswers : PoolRun.Answers (Endpoint.connect f.http) r.id r.node.baseUrl
          (f.pool.step now pe) := by
        rcases hpe with rfl | rfl
        · exact PoolRun.collect_answers hthere.sound hthere.genuine hwants now
        · exact PoolRun.expire_answers hthere.sound hthere.genuine hwants now
      have hreplies : f.pool.Replies r.id (fun _ => True) (f.pool.step now pe) := by
        rcases hpe with rfl | rfl
        · exact f.pool.collect_replies now r.id
        · exact f.pool.expire_replies now r.id
      have hreplied := hplaced.keeps.trans (.poolReply f now hcaller hnone)
      have htries := afterOpening_tries hreplied (o := (f.poolReply now r.id pe).2)
        (by
          rw [poolReply_eq]
          exact poolReply_answers hthere hcaller (genuine_of_eq_nil hnone) hanswers)
        (by simpa [hlease] using (poolReply_replies (fun _ _ _ => trivial) hreplies).lease) now
      rw [← afterPool_eq] at htries
      exact proceed_unsent hconnected now r.purpose htries visits calls

theorem Aside.alone (h : Aside id f g) : Alone id f g := by
  cases h with
  | timers now => exact .timers now
  | onPool now he => exact .onPool now he
  | nodes tracker => exact .nodes f.http tracker

/-- What happens aside leaves a request where it is. -/
theorem Placed.aside (h : f₀.Placed f id) (ho : Aside id f g) : f₀.Placed g id := by
  have hspared := ho.alone.elsewhere.spares
  refine ⟨h.keeps.trans ?_, fun r hr url hurl => ?_⟩
  · cases ho with
    | timers now => exact .same rfl rfl rfl
    | onPool now he hbrought => exact .onPool hbrought now
    | nodes tracker => exact .same rfl rfl rfl
  · rw [hspared.route] at hr
    rw [PoolRun.wanted, hspared.pool.acquisition] at hurl
    exact h.wants r hr url hurl

/-- A request for which nothing has been sent holds no connection. -/
theorem Stands.lease?_of_unsent (h : Stands candidates model id a f) (hcalls : a.calls = []) :
    f.pool.lease? id = none := by
  cases h with
  | waits _ hlease _ => exact hlease
  | calls => cases hcalls
  | givenUp _ _ habsent => exact habsent.lease
  | ended habsent _ _ => exact habsent.lease

/-- **A request that ends without a call** ends with an error, and one that counts is that of its
call to the node it visited last. -/
theorem course_unsent (hconnected : f₀.Connected) (hfree : f₀.Free id)
    (hstart : f₀.concern? id start = some (purpose, plan))
    (h : Course id (Aside id) f₀ t₀ start a f) (hcalls : a.calls = []) :
    Unsent f₀ id plan a f := by
  -- By induction on the course.  What has happened before an event sent nothing either, and the node
  -- that an open request has come to is its own one (`Placed`) until the next event.
  induction h with
  | begun =>
      have hplaced : f₀.Placed f₀ id := .of_route?_eq_none (.refl f₀) hfree.route
      unfold account
      rw [visits_of_start hfree.route hstart]
      rcases step_cases_of_start hfree.route hstart t₀ with
        ⟨-, ⟨-, hstep⟩ | ⟨-, t, hstep⟩⟩ | ⟨node, rest, htargets, -, hstep⟩
      · rw [hstep]
        refine ⟨hplaced, fun result hresult => ?_⟩
        cases hresult
        exact ⟨_, rfl, nofun⟩
      · rw [hstep]
        refine ⟨hplaced, fun result hresult => ?_⟩
        cases hresult
        exact ⟨_, rfl, nofun⟩
      · rw [hstep, htargets]
        exact proceed_unsent hconnected t₀ purpose
          (attempt_tries hconnected (.refl f₀) hfree t₀ purpose plan node rest) [] _
  | meanwhile _ hopen ho ih =>
      refine ⟨(ih hcalls).placed.aside ho, fun result hresult => ?_⟩
      cases hopen.symm.trans hresult
  | @goesOn a f hbefore hopen now e he ih =>
      obtain ⟨hnone, -⟩ := List.append_eq_nil_iff.mp hcalls
      have hunsent := ih hnone
      have hcourse := hbefore.mono fun _ _ ho => ho.alone
      have hstands :=
        course_stands (fun _ _ ho => ho.elsewhere.spares) hfree.toAbsent hstart hcourse
      cases hroute : f.route? id with
      | none =>
          obtain ⟨haccount, hstep⟩ := account_of_route?_eq_none hroute he now
          rw [haccount, hstep]
          exact ⟨hunsent.placed, nofun⟩
      | some r =>
          obtain rfl := id_of_route? hroute
          have hlease := hstands.lease?_of_unsent hnone
          obtain ⟨hmem, -⟩ := Keyed.of_find?_eq_some hroute
          obtain ⟨-, rfl⟩ := course_routes hfree.toAbsent hstart hcourse r hmem rfl
          have hmoves := step_moves hroute he now
          unfold Account.add account
          generalize f.visits now r.id e = more at hmoves
          generalize f.step now r.id e = out at hmoves
          cases hmoves with
          | collects =>
              exact poolEvent_unsent hconnected hunsent.placed hroute hlease (.inl rfl) now _ _
          | expires =>
              exact poolEvent_unsent hconnected hunsent.placed hroute hlease (.inr rfl) now _ _
          | answers _ hheld =>
              rw [hlease] at hheld
              cases hheld
          | stays => exact ⟨hunsent.placed, nofun⟩
          | leaves =>
              have hgone := (Absent.giveUp f now r).route
              exact ⟨.of_route?_eq_none (hunsent.placed.keeps.trans (.giveUp f now r)) hgone, nofun⟩

/-- **What is held against a node although nothing was sent.**  When a request has ended without a
call, and no other has moved meanwhile, it has ended with an error.  The error counts exactly when
it is why no call could be made at the node that was visited last; then the breaker of that node has
counted one failure.  Any other error has left every breaker as it was. -/
theorem course_unsent_counts {result : Except RoutingError InferenceAnswer}
    (hreachable : f₀.registry.Reachable) (hconnected : f₀.Connected) (hfree : f₀.Free id)
    (hstart : f₀.concern? id start = some (purpose, plan))
    (h : Course id (Aside id) f₀ t₀ start a f) (hcalls : a.calls = [])
    (hresult : a.result = some result) :
    ∃ e, result = .error e ∧ EndedUnsent f₀ f a plan.secret e := by
  have hunsent := course_unsent hconnected hfree hstart h hcalls
  obtain ⟨e, rfl, hlast⟩ := hunsent.failed result hresult
  have hcounts_iff : e.countsAsEndpointFailure = true ↔
      ∃ v, a.visits.getLast? = some v ∧ f₀.Unsendable v.node plan.secret e := by
    simp only [← callAt_eq_error_iff]
    refine ⟨hlast, fun hcall => ?_⟩
    obtain ⟨v, -, hv⟩ := hcall
    exact counts_of_callAt hv
  have hinformed := course_informed hreachable.wellFormed hfree.toAbsent hstart
    (h.mono fun _ _ ho => ho.alone)
  refine ⟨e, rfl, hcounts_iff, fun hneutral => ?_, fun v hv hunsendable => ?_⟩
  · rcases hinformed with ⟨rfl, -, -⟩ | hinformed
    · exact .refl _
    · obtain ⟨v, -, hheard⟩ := hinformed.heard hresult
      simp only [Verdict.ofResult, hneutral, Bool.false_eq_true, if_false] at hheard
      exact hheard
  · have hcounts := hcounts_iff.mpr ⟨v, hv, hunsendable⟩
    rcases hinformed with ⟨-, hnone, -⟩ | hinformed
    · rw [hnone] at hv
      cases hv
    · obtain ⟨v', hv', hheard⟩ := hinformed.heard hresult
      obtain rfl := Option.some.inj (hv.symm.trans hv')
      simp only [Verdict.ofResult, hcounts, if_true] at hheard
      exact ⟨hheard, totalFailures_of_heard hheard⟩

/-- A fleet with one node; its credential has a line break, and no header can carry it. -/
def brokenSecret : Fleet where
  tracker := {
    config := {}
    nodes := [{ Cluster.Node.new 0 "a:1" "a" 1 none with status := .online, models := ["m"] }] }
  registry := { config := {} }
  pool := { pool := { config := {} } }
  rotation := Credential.Rotation.new [⟨⟨"sk\nkey"⟩, some "m", .config, 1⟩] {}

/-- **A local fault is held against a node.**  The request ends before anything is sent, and the
breaker of the only node, which nobody has asked anything, has counted a failure. -/
theorem broken_secret_counted :
    let a := brokenSecret.account 1 1 askedForModel
    let f := (brokenSecret.step 1 1 askedForModel).1
    a.calls.length = 0 ∧ a.result.isSome = true ∧
      (brokenSecret.registry.breakerFor "node:a:1").failures = [] ∧
      (f.registry.breakerFor "node:a:1").failures = [1] ∧
      (brokenSecret.registry.breakerFor "node:a:1").totalFailures = 0 ∧
      (f.registry.breakerFor "node:a:1").totalFailures = 1 := by
  decide +kernel

/-- Its call counts where it has been let in, and does not where the pool was shut down before. -/
theorem course_unsent_counts_broken_secret :
    let a := brokenSecret.account 1 1 askedForModel
    let f := (brokenSecret.step 1 1 askedForModel).1
    let closed := (brokenSecret.onPool 0 .shutdown).1
    let a' := closed.account 1 1 askedForModel
    let f' := (closed.step 1 1 askedForModel).1
    (a.visits.map (fun v => v.node.id) = ["a:1"] ∧
      ∃ e, a.result = some (.error e) ∧ e.countsAsEndpointFailure = true ∧
        EndedUnsent brokenSecret f a (some ⟨"sk\nkey"⟩) e) ∧
    a'.visits.map (fun v => v.node.id) = ["a:1"] ∧
      ∃ e, a'.result = some (.error e) ∧ e.countsAsEndpointFailure = false ∧
        EndedUnsent closed f' a' (some ⟨"sk\nkey"⟩) e := by
  intro a f closed a' f'
  have hpool : Pool.new {} = .ok ({ config := {} } : Pool Endpoint) := rfl
  have hconnected : brokenSecret.Connected := connected_of_new hpool rfl
  refine ⟨⟨by decide +kernel, ?_⟩, by decide +kernel, ?_⟩
  · have hcalls : a.calls = [] := List.length_eq_zero_iff.mp (by decide +kernel)
    have hended : a.result.isSome = true := by decide +kernel
    have hverdict : a.result.map Verdict.ofResult = some .failure := by decide +kernel
    obtain ⟨result, hresult⟩ := Option.isSome_iff_exists.mp hended
    have hstart : brokenSecret.concern? 1 askedForModel =
        some (.active, brokenSecret.planFor "m" ⟨some "m", .obj []⟩) := rfl
    obtain ⟨e, rfl, hunsent⟩ :=
      course_unsent_counts (.new {} true) hconnected ⟨⟨rfl, rfl⟩, rfl⟩ hstart .begun hcalls hresult
    rw [hresult] at hverdict
    exact ⟨e, hresult, by simpa [Verdict.ofResult] using hverdict, hunsent⟩
  · have hclosed : closed.Connected := hconnected.onPool (genuine_of_eq_nil rfl) 0
    have hcalls : a'.calls = [] := List.length_eq_zero_iff.mp (by decide +kernel)
    have hended : a'.result.isSome = true := by decide +kernel
    have hverdict : a'.result.map Verdict.ofResult = some .neutral := by decide +kernel
    obtain ⟨result, hresult⟩ := Option.isSome_iff_exists.mp hended
    have hstart : closed.concern? 1 askedForModel =
        some (.active, closed.planFor "m" ⟨some "m", .obj []⟩) := rfl
    obtain ⟨e, rfl, hunsent⟩ :=
      course_unsent_counts (.new {} true) hclosed ⟨⟨rfl, rfl⟩, rfl⟩ hstart .begun hcalls hresult
    rw [hresult] at hverdict
    exact ⟨e, hresult, by simpa [Verdict.ofResult] using hverdict, hunsent⟩

end Fleet

end InferenceRouting
